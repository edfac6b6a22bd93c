/-
Module: MeterRadio.Text.Blank
Purpose: White space as the Unicode property, and the removal of it at the ends of a text.
Main exports: Text.isBlank, Text.trimStart, Text.trim
-/

namespace MeterRadio.Text

/-- Characters with the Unicode property White_Space. -/
def isBlank (c : Char) : Bool :=
  let n := c.toNat
  (9 ≤ n && n ≤ 13) || n == 0x20 || n == 0x85 || n == 0xA0 || n == 0x1680
    || (0x2000 ≤ n && n ≤ 0x200A) || n == 0x2028 || n == 0x2029 || n == 0x202F
    || n == 0x205F || n == 0x3000

/-- Drops white space in front. -/
def trimStart (chars : List Char) : List Char :=
  chars.dropWhile isBlank

/-- Drops white space at the end. -/
def trimEnd (chars : List Char) : List Char :=
  (chars.reverse.dropWhile isBlank).reverse

/-- Drops white space at both ends. -/
def trim (chars : List Char) : List Char :=
  trimEnd (trimStart chars)

end MeterRadio.Text
