/-
Module: MeterRadio.Text.Numeral
Purpose: Decimal and hexadecimal text of natural numbers, and the reading of decimal text
  within a limit.
Main exports: Text.decimal, Text.padded, Text.hexadecimal, Text.natural?, Text.integer?
-/

namespace MeterRadio.Text

/-- Decimal digits without leading zeros. -/
def decimal (n : Nat) : String :=
  String.ofList (Nat.toDigits 10 n)

/-- Fills a text up to a width from the left. -/
def padLeft (width : Nat) (fill : Char) (text : String) : String :=
  String.ofList (List.leftpad width fill text.toList)

/-- Decimal digits, right-aligned in a column of blanks. -/
def padded (width : Nat) (n : Nat) : String :=
  padLeft width ' ' (decimal n)

/-- Decimal digits with leading zeros up to a width. -/
def zeroPadded (width : Nat) (n : Nat) : String :=
  padLeft width '0' (decimal n)

/-- Upper-case hexadecimal digits with leading zeros up to a width. -/
def hexadecimal (width : Nat) (n : Nat) : String :=
  padLeft width '0' (String.ofList ((Nat.toDigits 16 n).map Char.toUpper))

/-- The value of a decimal digit. -/
def digit (c : Char) : Nat :=
  c.toNat - '0'.toNat

/-- The value of a list of decimal digits. -/
def digitsValue (digits : List Char) : Nat :=
  digits.foldl (fun value c => 10 * value + digit c) 0

/-- Reads one or more decimal digits and nothing else. -/
def digits? (chars : List Char) : Option Nat :=
  if chars.isEmpty then none
  else if chars.all Char.isDigit then some (digitsValue chars)
  else none

/-- Keeps a value that is at most the limit. -/
def within (limit : Nat) (value : Nat) : Option Nat :=
  if value ≤ limit then some value else none

/-- Reads a natural number of at most `limit`: an optional plus sign, then decimal digits. -/
def natural? (limit : Nat) (chars : List Char) : Option Nat :=
  match chars with
  | '+' :: rest => (digits? rest).bind (within limit)
  | _ => (digits? chars).bind (within limit)

/-- Reads an integer between `-limit - 1` and `limit`: an optional sign, then decimal digits. -/
def integer? (limit : Nat) (chars : List Char) : Option Int :=
  match chars with
  | '-' :: rest => ((digits? rest).bind (within (limit + 1))).map fun n => -(n : Int)
  | _ => (natural? limit chars).map fun n => (n : Int)

/-- The text with its ASCII letters in lower case; all else stays. -/
def lowerAscii (text : String) : String :=
  String.ofList (text.toList.map Char.toLower)

end MeterRadio.Text
