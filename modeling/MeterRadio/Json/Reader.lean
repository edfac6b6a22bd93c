/-
Module: MeterRadio.Json.Reader
Purpose: Reading JSON text.
Main exports: Json.parse?
-/
import MeterRadio.Json.Value

namespace MeterRadio.Json

/-- Blank, tab, line feed and carriage return. -/
def isSpace (c : Char) : Bool :=
  c == ' ' || c == '\t' || c == '\n' || c == '\r'

/-- Drops white space in front. -/
def skip (chars : List Char) : List Char := chars.dropWhile isSpace

/-! ### Strings -/

/-- A part of a string: a character, or a code unit given by an escape. -/
inductive Piece where
  | char (c : Char)
  | unit (code : Nat)
deriving Repr, DecidableEq

/-- The code unit of four hexadecimal digits. -/
def codeUnit? (a b c d : Char) : Option Nat := do
  let a ← Bytes.digitValue? a
  let b ← Bytes.digitValue? b
  let c ← Bytes.digitValue? c
  let d ← Bytes.digitValue? d
  pure (((a * 16 + b) * 16 + c) * 16 + d)

/-- The character of a short escape. -/
def shortEscape? (c : Char) : Option Char :=
  if c = '"' ∨ c = '\\' ∨ c = '/' then some c
  else if c = 'b' then some '\x08'
  else if c = 'f' then some '\x0c'
  else if c = 'n' then some '\n'
  else if c = 'r' then some '\r'
  else if c = 't' then some '\t'
  else none

/-- Reads the parts of a string up to its closing quote. Control characters are refused. -/
def pieces? : List Char → Option (List Piece × List Char)
  | [] => none
  | '"' :: rest => some ([], rest)
  | '\\' :: 'u' :: a :: b :: c :: d :: rest => do
    let code ← codeUnit? a b c d
    let (pieces, after) ← pieces? rest
    pure (.unit code :: pieces, after)
  | '\\' :: c :: rest => do
    let c ← shortEscape? c
    let (pieces, after) ← pieces? rest
    pure (.char c :: pieces, after)
  | c :: rest =>
    if c.toNat < 32 ∨ c = '\\' then none
    else (pieces? rest).map fun (pieces, after) => (.char c :: pieces, after)

/-- Whether a code unit opens a surrogate pair. -/
def isLeading (code : Nat) : Bool := 0xD800 ≤ code && code < 0xDC00

/-- Whether a code unit closes a surrogate pair. -/
def isTrailing (code : Nat) : Bool := 0xDC00 ≤ code && code < 0xE000

/-- The characters of the parts; there are none if half a surrogate pair stands alone. -/
def join? : List Piece → Option (List Char)
  | [] => some []
  | .char c :: rest => (join? rest).map (c :: ·)
  | .unit high :: .unit low :: rest =>
    if isLeading high then
      if isTrailing low then
        (join? rest).map (Char.ofNat (0x10000 + (high - 0xD800) * 0x400 + (low - 0xDC00)) :: ·)
      else none
    else if isTrailing high then none
    else (join? (.unit low :: rest)).map (Char.ofNat high :: ·)
  | .unit code :: rest =>
    if isLeading code || isTrailing code then none
    else (join? rest).map (Char.ofNat code :: ·)

/-- Reads a string after its opening quote. -/
def string? (chars : List Char) : Option (Option String × List Char) :=
  (pieces? chars).map fun (pieces, rest) => ((join? pieces).map String.ofList, rest)

/-! ### Numbers -/

/-- Length of the fraction in front of a text: a point and at least one digit, or nothing. -/
def fractionLength? : List Char → Option Nat
  | '.' :: rest =>
    let n := (rest.takeWhile Char.isDigit).length
    if n = 0 then none else some (n + 1)
  | _ => some 0

/-- Length of the exponent in front of a text: the letter e, an optional sign and at least one
digit, or nothing. -/
def exponentLength? : List Char → Option Nat
  | [] => some 0
  | c :: rest =>
    if c = 'e' ∨ c = 'E' then
      let sign := match rest with
        | '+' :: _ => 1
        | '-' :: _ => 1
        | _ => 0
      let n := ((rest.drop sign).takeWhile Char.isDigit).length
      if n = 0 then none else some (1 + sign + n)
    else some 0

/-- Length of the whole part in front of a text: a single zero, or digits without one in front. -/
def wholeLength? : List Char → Option Nat
  | '0' :: _ => some 1
  | chars =>
    let n := (chars.takeWhile Char.isDigit).length
    if n = 0 then none else some n

/-- Reads a number. -/
def number? (chars : List Char) : Option (Json × List Char) := do
  let sign := match chars with
    | '-' :: _ => 1
    | _ => 0
  let whole ← wholeLength? (chars.drop sign)
  let fraction ← fractionLength? (chars.drop (sign + whole))
  let exponent ← exponentLength? (chars.drop (sign + whole + fraction))
  let length := sign + whole + fraction + exponent
  let literal := chars.take length
  let value : Json :=
    if length = whole then .natural (Text.digitsValue literal)
    else .number (String.ofList literal)
  pure (value, chars.drop length)

/-! ### Values -/

/-- Reads the given word and stands for the given value. -/
def keyword? (word : String) (value : Json) (chars : List Char) : Option (Json × List Char) :=
  if chars.take word.length = word.toList then some (value, chars.drop word.length) else none

mutual
/-- Reads a value, at most `fuel` values deep and long. -/
def value? : Nat → List Char → Option (Json × List Char)
  | 0, _ => none
  | fuel + 1, chars =>
    match skip chars with
    | [] => none
    | '"' :: rest => (string? rest).map fun (text, after) => (.string text, after)
    | '[' :: rest =>
      match skip rest with
      | ']' :: after => some (.array [], after)
      | rest => (items fuel rest).map fun (values, after) => (.array values, after)
    | '\x7b' :: rest =>
      match skip rest with
      | '\x7d' :: after => some (.object [], after)
      | rest => (members fuel rest).map fun (values, after) => (.object values, after)
    | 't' :: rest => keyword? "true" (.bool true) ('t' :: rest)
    | 'f' :: rest => keyword? "false" (.bool false) ('f' :: rest)
    | 'n' :: rest => keyword? "null" .null ('n' :: rest)
    | rest => number? rest

/-- Reads items up to the closing bracket. -/
def items : Nat → List Char → Option (List Json × List Char)
  | 0, _ => none
  | fuel + 1, chars => do
    let (item, rest) ← value? fuel chars
    match skip rest with
    | ',' :: rest => (items fuel rest).map fun (more, after) => (item :: more, after)
    | ']' :: rest => pure ([item], rest)
    | _ => none

/-- Reads members up to the closing brace. -/
def members : Nat → List Char → Option (List (Option String × Json) × List Char)
  | 0, _ => none
  | fuel + 1, chars => do
    let (name, rest) ← match skip chars with
      | '"' :: rest => string? rest
      | _ => none
    let rest ← match skip rest with
      | ':' :: rest => some rest
      | _ => none
    let (value, rest) ← value? fuel rest
    match skip rest with
    | ',' :: rest => (members fuel rest).map fun (more, after) => ((name, value) :: more, after)
    | '\x7d' :: rest => pure ([(name, value)], rest)
    | _ => none
end

/-- Reads a text that is one value. -/
def parse? (text : String) : Option Json := do
  let chars := text.toList
  let (value, rest) ← value? (chars.length + 1) chars
  if (skip rest).isEmpty then pure value else none

end MeterRadio.Json
