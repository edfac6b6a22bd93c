/-
Module: MeterRadio.Source
Purpose: Where samples come from: reads of whole blocks from a source that delivers its bytes in
  pieces of any size.
Main exports: Source, Source.read, Source.drain, Source.blocks, TransportError
-/
import MeterRadio.Bytes
import MeterRadio.Fault

namespace MeterRadio

/-- Why there are no more samples. -/
inductive TransportError where
  | io (fault : Fault)
  | endOfStream
  | badMagic (bytes : Bytes)
deriving Repr, DecidableEq

/-- The wording of a transport error. -/
def TransportError.message : TransportError → String
  | .io fault => "transport I/O error: " ++ fault.message
  | .endOfStream => "sample stream ended"
  | .badMagic bytes =>
    "invalid rtl_tcp header magic: ["
      ++ String.intercalate ", " (bytes.map fun b => Text.decimal b.toNat) ++ "]"

/-- What a source delivers next: bytes, none of them at the end of a stream, or a fault. -/
inductive Delivery where
  | data (bytes : Bytes)
  | fault (fault : Fault)
deriving Repr, DecidableEq

/-- A source as its deliveries to come. After the last one the stream is at its end. -/
abbrev Source := List Delivery

namespace Source

/-- The error of a read that met a fault. -/
def readError : Fault → TransportError
  | .unexpectedEof => .endOfStream
  | fault => .io fault

/-- Reads `n` more bytes after those already read, given in reverse order. A delivery is used up
from its front; an interrupted one is passed over. What was read before an error is lost. -/
def readAfter (done : Bytes) : Nat → Source → Except TransportError Bytes × Source
  | 0, source => (.ok done.reverse, source)
  | _ + 1, [] => (.error .endOfStream, [])
  | n + 1, .fault .interrupted :: rest => readAfter done (n + 1) rest
  | _ + 1, .fault fault :: rest => (.error (readError fault), rest)
  | _ + 1, .data [] :: rest => (.error .endOfStream, rest)
  | n + 1, .data bytes :: rest =>
    if n + 1 < bytes.length then
      (.ok (done.reverse ++ bytes.take (n + 1)), .data (bytes.drop (n + 1)) :: rest)
    else readAfter (bytes.reverse ++ done) (n + 1 - bytes.length) rest

/-- Reads a block of exactly `n` bytes. -/
def read (n : Nat) (source : Source) : Except TransportError Bytes × Source :=
  readAfter [] n source

/-- All bytes of a source in which nothing fails. -/
def ofBytes (bytes : Bytes) : Source := [.data bytes]

/-- The whole blocks of `n` bytes at the front of a byte string, at most `fuel` of them. -/
def blocksFrom (n : Nat) : Nat → Bytes → List Bytes
  | 0, _ => []
  | fuel + 1, bytes =>
    if bytes.length < n then [] else bytes.take n :: blocksFrom n fuel (bytes.drop n)

/-- The whole blocks of `n` bytes of a byte string; what is left over at the end is no block. -/
def blocks (n : Nat) (bytes : Bytes) : List Bytes :=
  if n = 0 then [] else blocksFrom n (bytes.length / n) bytes

/-- Bytes that a source delivers at most. -/
def volume (source : Source) : Nat :=
  source.foldl (fun total d =>
    total + match d with
      | .data bytes => bytes.length
      | .fault _ => 0) 0

/-- Reads blocks of `n` bytes until a read fails, `fuel` of them at most. -/
def drainFrom (n : Nat) : Nat → Source → List Bytes × TransportError
  | 0, _ => ([], .endOfStream)
  | fuel + 1, source =>
    match source.read n with
    | (.error error, _) => ([], error)
    | (.ok block, rest) =>
      let (blocks, error) := drainFrom n fuel rest
      (block :: blocks, error)

/-- Reads blocks of `n` bytes until a read fails, and returns them with the error of that read. -/
def drain (n : Nat) (source : Source) : List Bytes × TransportError :=
  drainFrom n (source.volume + 1) source

end Source
end MeterRadio
