/-
Module: MeterRadio.Source.Lookahead
Purpose: A source behind a buffer that takes in more than is asked for. A server's greeting and the
  samples after it are read through one such buffer, and so are the samples of a file.
Main exports: Source.deliver, Lookahead, Lookahead.deliver, Lookahead.read
-/
import MeterRadio.Source

namespace MeterRadio

/-- One delivery of at most `n` bytes; what is left of it comes next. At the end of a stream there
are no bytes in it. -/
def Source.deliver (n : Nat) : Source → Except Fault Bytes × Source
  | [] => (.ok [], [])
  | .fault fault :: rest => (.error fault, rest)
  | .data bytes :: rest =>
    (.ok (bytes.take n), if n < bytes.length then .data (bytes.drop n) :: rest else rest)

/-- A source, and the bytes that were taken from it and not asked for yet. At most `capacity` bytes
are taken in at a time. -/
structure Lookahead where
  capacity : Nat
  pending : Bytes
  source : Source
deriving Repr, DecidableEq

/-- A delivery that fails is used up. -/
theorem Source.length_of_fault {n : Nat} {source after : Source} {fault : Fault}
    (h : source.deliver n = (.error fault, after)) : after.length < source.length := by
  unfold deliver at h
  split at h
  · cases h
  · cases h
    exact Nat.lt_succ_self _
  · cases h

namespace Lookahead

/-- A source from which nothing was taken. -/
def fresh (capacity : Nat) (source : Source) : Lookahead := ⟨capacity, [], source⟩

/-- One delivery of at most `n` bytes: from the buffer if there are any in it, else from the source.
A request that would fill the buffer goes past it. -/
def deliver (n : Nat) (b : Lookahead) : Except Fault Bytes × Lookahead :=
  if b.pending ≠ [] then (.ok (b.pending.take n), { b with pending := b.pending.drop n })
  else if b.capacity ≤ n then
    let (answer, source) := b.source.deliver n
    (answer, { b with source })
  else
    match b.source.deliver b.capacity with
    | (.ok bytes, source) => (.ok (bytes.take n), { b with pending := bytes.drop n, source })
    | (.error fault, source) => (.error fault, { b with source })

/-- A delivery that fails is one of the source. -/
theorem length_of_fault {n : Nat} {b after : Lookahead} {fault : Fault}
    (h : b.deliver n = (.error fault, after)) : after.source.length < b.source.length := by
  unfold deliver at h
  split at h
  · cases h
  · split at h
    · cases hsource : b.source.deliver n with
      | mk answer source =>
          rw [hsource] at h
          cases h
          exact Source.length_of_fault hsource
    · cases hsource : b.source.deliver b.capacity with
      | mk answer source =>
          rw [hsource] at h
          cases answer with
          | ok bytes => cases h
          | error found =>
              cases h
              exact Source.length_of_fault hsource

/-- Reads `n` more bytes after those already read. An interrupted delivery is asked for again. What
was read before an error is lost. -/
def readAfter (done : Bytes) : Nat → Lookahead → Except TransportError Bytes × Lookahead
  | 0, b => (.ok done, b)
  | n + 1, b =>
    match h : b.deliver (n + 1) with
    | (.ok [], after) => (.error .endOfStream, after)
    | (.ok (byte :: more), after) =>
      readAfter (done ++ byte :: more) (n - more.length) after
    | (.error .interrupted, after) => readAfter done (n + 1) after
    | (.error fault, after) => (.error (Source.readError fault), after)
termination_by n b => (n, b.source.length)
decreasing_by
  · exact Prod.Lex.left _ _ (by omega)
  · exact Prod.Lex.right _ (length_of_fault h)

/-- Reads a block of exactly `n` bytes. -/
def read (n : Nat) (b : Lookahead) : Except TransportError Bytes × Lookahead :=
  readAfter [] n b

end Lookahead
end MeterRadio
