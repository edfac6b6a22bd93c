/-
Module: MeterRadio.Json.Scaled
Purpose: Whether a number can be taken in as a double. It is read as a significand of 64 bits and
  a power of ten; digits that no longer fit count as zeros. Both parts are rounded to doubles, and
  so is their product, which has to be finite.
Main exports: Json.Scaled, Json.Scaled.ofLiteral, Json.isFinite
-/
import MeterRadio.Number.Binary64

namespace MeterRadio.Json

/-- The value `significand * 10 ^ power`. -/
structure Scaled where
  significand : Nat
  power : Int
deriving Repr, DecidableEq

namespace Scaled

/-- The greatest significand. -/
def maxSignificand : Nat := 0xFFFFFFFFFFFFFFFF

/-- The greatest exponent that is read, with either sign. -/
def maxExponent : Int := 0x7FFFFFFF

/-- The greatest power of ten that a double can be multiplied with. -/
def maxPower : Int := 308

/-- The least number that rounds to infinity. -/
def overflowBound : Nat := ((1 <<< 54) - 1) <<< 970

/-- A significand with one more digit, if there is room. -/
def extend? (significand : Nat) (c : Char) : Option Nat :=
  Text.within maxSignificand (10 * significand + Text.digit c)

/-- Takes in the digits in front of the point. -/
def whole : Nat → List Char → Scaled
  | significand, [] => ⟨significand, 0⟩
  | significand, c :: rest =>
    match extend? significand c with
    | some significand => whole significand rest
    | none => ⟨significand, ((c :: rest).length : Int)⟩

/-- Takes in the digits behind the point. -/
def fraction : Scaled → List Char → Scaled
  | s, [] => s
  | s, c :: rest =>
    match extend? s.significand c with
    | some significand => fraction ⟨significand, s.power - 1⟩ rest
    | none => s

/-- Whether the rounded product of significand and power of ten is finite. -/
def isFinite (s : Scaled) : Bool :=
  if s.power < 0 ∨ s.significand = 0 then true
  else if maxPower < s.power then false
  else
    decide (Number.roundTo 53 s.significand * Number.roundTo 53 (Number.tenTo s.power.toNat)
      < overflowBound)

/-- Whether the value is finite with an exponent added to its power of ten. -/
def isFiniteAt (s : Scaled) (exponent : Int) : Bool :=
  if maxExponent < exponent then s.significand == 0
  else if exponent < -maxExponent then true
  else isFinite ⟨s.significand, s.power + exponent⟩

/-- The digits of a number without its sign, and what follows them. -/
def ofLiteral (chars : List Char) : Scaled × List Char :=
  let digits := chars.takeWhile Char.isDigit
  match chars.drop digits.length with
  | '.' :: rest =>
    (fraction (whole 0 digits) (rest.takeWhile Char.isDigit), rest.dropWhile Char.isDigit)
  | rest => (whole 0 digits, rest)

end Scaled

/-- Whether a number can be taken in as a double. -/
def isFinite (literal : String) : Bool :=
  let chars := literal.toList
  let (scaled, rest) := Scaled.ofLiteral (if chars.head? = some '-' then chars.tail else chars)
  scaled.isFiniteAt ((Number.Binary64.exponentPart? rest).getD 0)

end MeterRadio.Json
