/-
Module: MeterRadio.Json.Value
Purpose: JSON values and their compact text.
Main exports: Json, Json.render, Json.record?, Json.isFaithful
-/
import MeterRadio.Bytes
import MeterRadio.Json.Scaled

namespace MeterRadio

/-- A JSON value. Members keep their order and may repeat a name. A text is missing where an
escape names half of a surrogate pair. -/
inductive Json where
  | null
  | bool (value : Bool)
  /-- A number without sign, fraction and exponent. -/
  | natural (value : Nat)
  /-- Any other number, as written. -/
  | number (literal : String)
  | string (text : Option String)
  | array (items : List Json)
  | object (members : List (Option String × Json))
deriving Repr, Inhabited

namespace Json

/-- The string value of a text. -/
def text (s : String) : Json := .string (some s)

/-- An object with names in order. -/
def record (members : List (String × Json)) : Json :=
  .object (members.map fun m => (some m.1, m.2))

/-- An array of numbers. -/
def naturals (values : List Nat) : Json := .array (values.map .natural)

/-! ### Writing -/

/-- Escape of a character inside a string: a short one where there is one, four hexadecimal
digits for the other control characters. -/
def escape (c : Char) : List Char :=
  if c = '"' then ['\\', '"']
  else if c = '\\' then ['\\', '\\']
  else if c = '\x08' then ['\\', 'b']
  else if c = '\t' then ['\\', 't']
  else if c = '\n' then ['\\', 'n']
  else if c = '\x0c' then ['\\', 'f']
  else if c = '\r' then ['\\', 'r']
  else if c.toNat < 32 then
    ['\\', 'u', '0', '0'] ++ Bytes.hexByte Bytes.lowerDigits (UInt8.ofNat c.toNat)
  else [c]

/-- A string between double quotes. -/
def quote (s : String) : List Char :=
  '"' :: s.toList.flatMap escape ++ ['"']

mutual
/-- Compact text of a value. A missing text is written as an empty string. -/
def chars : Json → List Char
  | .null => "null".toList
  | .bool value => if value then "true".toList else "false".toList
  | .natural value => Nat.toDigits 10 value
  | .number literal => literal.toList
  | .string text => quote (text.getD "")
  | .array items => '[' :: itemChars items ++ [']']
  | .object members => '\x7b' :: memberChars members ++ ['\x7d']

/-- Items with commas between them. -/
def itemChars : List Json → List Char
  | [] => []
  | [item] => chars item
  | item :: next :: rest => chars item ++ ',' :: itemChars (next :: rest)

/-- Members with commas between them. -/
def memberChars : List (Option String × Json) → List Char
  | [] => []
  | [(name, value)] => quote (name.getD "") ++ ':' :: chars value
  | (name, value) :: next :: rest =>
    quote (name.getD "") ++ ':' :: chars value ++ ',' :: memberChars (next :: rest)
end

/-- Compact text of a value. -/
def render (j : Json) : String := String.ofList (chars j)

/-! ### Reading fields -/

/-- The value of the only member of a name. -/
def only? (name : String) (members : List (Option String × Json)) : Option Json :=
  match members.filter (fun m => m.1 == some name) with
  | [(_, value)] => some value
  | _ => none

/-- The values of the named fields in order: from an object in which each name occurs once and
every name is readable, or from an array of just these fields. -/
def record? (names : List String) : Json → Option (List Json)
  | .object members =>
    if members.all (fun m => m.1.isSome) then names.mapM fun name => only? name members else none
  | .array items => if items.length = names.length then some items else none
  | _ => none

/-- A natural number of at most `limit`. -/
def natural? (limit : Nat) : Json → Option Nat
  | .natural value => Text.within limit value
  | _ => none

/-- A text. -/
def text? : Json → Option String
  | .string text => text
  | _ => none

/-- The items of an array. -/
def items? : Json → Option (List Json)
  | .array items => some items
  | _ => none

mutual
/-- How deep arrays and objects lie in each other. -/
def depth : Json → Nat
  | .array items => 1 + itemDepth items
  | .object members => 1 + memberDepth members
  | _ => 0

/-- The greatest depth among items. -/
def itemDepth : List Json → Nat
  | [] => 0
  | item :: rest => max (depth item) (itemDepth rest)

/-- The greatest depth among members. -/
def memberDepth : List (Option String × Json) → Nat
  | [] => 0
  | (_, value) :: rest => max (depth value) (memberDepth rest)
end

mutual
/-- Whether every text is readable and every number a word of 64 bits or a finite double. -/
def isFaithful : Json → Bool
  | .natural value =>
    decide (value ≤ Scaled.maxSignificand) || isFinite (String.ofList (Nat.toDigits 10 value))
  | .number literal => isFinite literal
  | .string text => text.isSome
  | .array items => itemsFaithful items
  | .object members => membersFaithful members
  | _ => true

/-- All items are faithful. -/
def itemsFaithful : List Json → Bool
  | [] => true
  | item :: rest => isFaithful item && itemsFaithful rest

/-- All names are readable and all values faithful. -/
def membersFaithful : List (Option String × Json) → Bool
  | [] => true
  | (name, value) :: rest => name.isSome && isFaithful value && membersFaithful rest
end

end Json
end MeterRadio
