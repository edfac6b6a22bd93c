/-
Module: MeterRadio.Trace.Pattern
Purpose: The form of the values that a directive may ask of a field: a truth value, a number, or a
  pattern with groups, classes, repetitions and escapes. Neither a comma, a closing brace nor an
  equals sign can occur in them.
Main exports: Trace.isPattern, Trace.isFieldValue
-/
import MeterRadio.Bytes
import MeterRadio.Number.Binary64

namespace MeterRadio.Trace

/-! ### Escapes -/

/-- Reads hexadecimal digits that name a character. -/
def codePoint? (length : Nat) (chars : List Char) : Option (Char × List Char) := do
  if chars.length < length then none
  let code ← (chars.take length).foldlM
    (fun value c => (Bytes.digitValue? c).map (16 * value + ·)) 0
  if code < 0xD800 ∨ (0xDFFF < code ∧ code < 0x110000) then
    pure (Char.ofNat code, chars.drop length)
  else none

/-- What an escape stands for: one character, a set of them, or a place between two. -/
inductive Escape where
  | char (c : Char)
  | set
  | place
deriving Repr, DecidableEq

/-- The character of a letter after a backslash. -/
def controlEscape? (c : Char) : Option Char :=
  if c = 'a' then some '\x07'
  else if c = 'f' then some '\x0c'
  else if c = 't' then some '\t'
  else if c = 'n' then some '\n'
  else if c = 'r' then some '\r'
  else if c = 'v' then some '\x0b'
  else none

/-- Whether a character stands for itself after a backslash. -/
def escapesItself (c : Char) : Bool :=
  c.toNat < 0x80 && !c.isAlphanum && c != '<' && c != '>'

/-- Reads what follows a backslash. Word boundaries are not taken, for they look at the letters of
all scripts. -/
def escape? : List Char → Option (Escape × List Char)
  | [] => none
  | c :: rest =>
    let charOf (length : Nat) := (codePoint? length rest).map fun (c, rest) => (.char c, rest)
    if c = 'x' then charOf 2
    else if c = 'u' then charOf 4
    else if c = 'U' then charOf 8
    else if c = 'p' ∨ c = 'P' then
      match rest with
      | d :: rest => if "LMNPSZC".toList.contains d then some (.set, rest) else none
      | [] => none
    else if "dDsSwW".toList.contains c then some (.set, rest)
    else if c = 'A' ∨ c = 'z' then some (.place, rest)
    else
      match controlEscape? c with
      | some control => some (.char control, rest)
      | none => if escapesItself c then some (.char c, rest) else none

/-! ### Classes -/

/-- The names of the classes of ASCII characters. -/
def asciiClasses : List String :=
  ["alnum", "alpha", "ascii", "blank", "cntrl", "digit", "graph", "lower", "print", "punct",
   "space", "upper", "word", "xdigit"]

/-- Reads a named class after its bracket. -/
def asciiClass? (chars : List Char) : Option (List Char) :=
  match chars with
  | ':' :: rest =>
    let rest := if rest.head? = some '^' then rest.tail else rest
    let name := rest.takeWhile Char.isAlpha
    match rest.drop name.length with
    | ':' :: ']' :: after =>
      if asciiClasses.contains (String.ofList name) then some after else none
    | _ => none
  | _ => none

/-- Drops the marks at the start of a class: a caret, hyphens, and a bracket that stands for
itself. -/
def classStart (chars : List Char) : List Char :=
  let chars := if chars.head? = some '^' then chars.tail else chars
  let rest := chars.dropWhile (· == '-')
  if rest.length = chars.length ∧ rest.head? = some ']' then rest.tail else rest

/-- Reads a member of a class: a character, or a set of them. -/
def member? : List Char → Option (Option Char × List Char)
  | [] => none
  | '\\' :: rest =>
    match escape? rest with
    | some (.char c, rest) => some (some c, rest)
    | some (.set, rest) => some (none, rest)
    | _ => none
  | c :: rest => some (some c, rest)

/-- Reads the second end of a range that starts with a character, if a range follows. -/
def rangeEnd? (first : Option Char) (chars : List Char) : Option (List Char) :=
  match chars with
  | '-' :: next :: rest =>
    if next = ']' ∨ next = '-' then some chars
    else
      match first, member? (next :: rest) with
      | some low, some (some high, rest) => if low ≤ high then some rest else none
      | _, _ => none
  | _ => some chars

/-- Reads classes up to the end of the outermost one; `depth` of them are open inside it, and at
most `fuel` members are looked at. -/
def classEnd? : Nat → Nat → List Char → Option (List Char)
  | 0, _, _ => none
  | _, _, [] => none
  | fuel + 1, depth, ']' :: rest =>
    if depth = 0 then some rest else classEnd? fuel (depth - 1) rest
  | fuel + 1, depth, '[' :: rest =>
    match asciiClass? rest with
    | some rest => classEnd? fuel depth rest
    | none => classEnd? fuel (depth + 1) (classStart rest)
  | fuel + 1, depth, chars => do
    let (first, rest) ← member? chars
    classEnd? fuel depth (← rangeEnd? first rest)

/-! ### Groups -/

/-- Reads the name of a group up to its closing bracket. -/
def groupName? (chars : List Char) : Option (List Char) :=
  let name := chars.takeWhile fun c => c.isAlphanum || c == '_' || c == '.'
  match name, chars.drop name.length with
  | first :: _, '>' :: rest => if first.isAlpha || first == '_' then some rest else none
  | _, _ => none

/-- Whether flags are well-formed: letters, each once, and at most one minus, not at the end. -/
def areFlags (flags : List Char) : Bool :=
  flags.all (fun c => "imsUuRx-".toList.contains c && flags.count c == 1)
    && flags.getLast? != some '-'

/-- Reads what follows the opening parenthesis: whether a group is open after it, and the rest. -/
def groupStart? (chars : List Char) : Option (Bool × List Char) :=
  match chars with
  | '?' :: 'P' :: '<' :: rest => (groupName? rest).map fun rest => (true, rest)
  | '?' :: '<' :: rest => (groupName? rest).map fun rest => (true, rest)
  | '?' :: rest =>
    let flags := rest.takeWhile fun c => c != ':' && c != ')'
    match rest.drop flags.length with
    | ':' :: rest => if areFlags flags then some (true, rest) else none
    | ')' :: rest => if areFlags flags && !flags.isEmpty then some (false, rest) else none
    | _ => none
  | _ => some (true, chars)

/-! ### Patterns -/

/-- Whether a pattern goes on well-formed: `depth` groups are open, and `repeatable` says whether
something stands in front that can be repeated. At most `fuel` pieces are looked at. -/
def wellFormed : Nat → Nat → Bool → List Char → Bool
  | 0, _, _, _ => false
  | _, depth, _, [] => depth == 0
  | fuel + 1, depth, repeatable, c :: rest =>
    if c = '(' then
      match groupStart? rest with
      | some (isOpen, rest) => wellFormed fuel (if isOpen then depth + 1 else depth) false rest
      | none => false
    else if c = ')' then depth != 0 && wellFormed fuel (depth - 1) true rest
    else if c = '|' then wellFormed fuel depth false rest
    else if c = '*' ∨ c = '+' ∨ c = '?' then repeatable && wellFormed fuel depth true rest
    else if c = '\x7b' then false
    else if c = '[' then
      match classEnd? (rest.length + 1) 0 (classStart rest) with
      | some rest => wellFormed fuel depth true rest
      | none => false
    else if c = '\\' then
      match escape? rest with
      | some (_, rest) => wellFormed fuel depth true rest
      | none => false
    else wellFormed fuel depth true rest

/-- Whether a text is a well-formed pattern. -/
def isPattern (chars : List Char) : Bool :=
  wellFormed (chars.length + 1) 0 false chars

/-- Whether a text can be asked of a field. -/
def isFieldValue (chars : List Char) : Bool :=
  let text := String.ofList chars
  text == "true" || text == "false" || (Number.Binary64.ofText? text).isSome || isPattern chars

end MeterRadio.Trace
