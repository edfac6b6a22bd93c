/-
Module: MeterRadio.Bits
Purpose: Bit strings inside byte strings, most significant bit first.
Main exports: Bits.bit, Bits.read, Bits.pack, Bits.ofBytes, Bits.ofNat, Bits.toNat
-/
import MeterRadio.Bytes

namespace MeterRadio.Bits

/-- Bit `i` of a byte string, counted from the most significant bit of the first byte.
Beyond the end every bit is clear. -/
def bit (data : Bytes) (i : Nat) : Bool :=
  (data.getD (i / 8) 0).toNat.testBit (7 - i % 8)

/-- Reads `count` bits from bit `start` on as an integer, most significant bit first.
Of more than 64 bits the last 64 remain. -/
def read (data : Bytes) (start count : Nat) : UInt64 :=
  (List.range count).foldl
    (fun value k => (value <<< 1) ||| (if bit data (start + k) then 1 else 0)) 0

/-- The bits of a byte, most significant first. -/
def ofByte (b : UInt8) : List Bool :=
  (List.range 8).map fun k => b.toNat.testBit (7 - k)

/-- The bits of a byte string in order. -/
def ofBytes (data : Bytes) : List Bool :=
  data.flatMap ofByte

/-- The low `width` bits of a number, most significant first. -/
def ofNat (width value : Nat) : List Bool :=
  (List.range width).map fun k => value.testBit (width - 1 - k)

/-- The bits read as one number, most significant first. -/
def toNat (bits : List Bool) : Nat :=
  bits.foldl (fun value b => 2 * value + b.toNat) 0

/-- The byte whose leading bits are the first eight given, clear where there are fewer. -/
def packByte (bits : List Bool) : UInt8 :=
  UInt8.ofNat (toNat ((List.range 8).map fun k => bits.getD k false))

/-- Packs bits into bytes, most significant first, the last byte filled up with clear bits. -/
def pack (bits : List Bool) : Bytes :=
  (List.range ((bits.length + 7) / 8)).map fun j => packByte (bits.drop (8 * j))

@[simp] theorem length_ofByte (b : UInt8) : (ofByte b).length = 8 := by
  simp [ofByte]

@[simp] theorem length_ofNat (width value : Nat) : (ofNat width value).length = width := by
  simp [ofNat]

@[simp] theorem length_pack (bits : List Bool) : (pack bits).length = (bits.length + 7) / 8 := by
  simp [pack]

@[simp] theorem ofBytes_nil : ofBytes [] = [] := rfl

theorem ofBytes_cons (b : UInt8) (rest : Bytes) :
    ofBytes (b :: rest) = ofByte b ++ ofBytes rest := rfl

@[simp] theorem ofBytes_append (a b : Bytes) : ofBytes (a ++ b) = ofBytes a ++ ofBytes b := by
  simp [ofBytes]

end MeterRadio.Bits
