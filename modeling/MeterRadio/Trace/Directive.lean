/-
Module: MeterRadio.Trace.Directive
Purpose: Directives that say how much is shown of the lines of which origin. A directive names a
  target, in brackets a span and a field in braces, and after an equals sign a level; each part may
  be missing, as in `target[span{field=value}]=level`. Lines stand in no span and have one field,
  their message.
Main exports: Trace.Directive, Trace.directives?, Trace.shown
-/
import MeterRadio.Text.Alphanumeric
import MeterRadio.Text.Blank
import MeterRadio.Trace
import MeterRadio.Trace.Pattern

namespace MeterRadio.Trace

/-- A field that a directive names, and whether it asks for a value of it. -/
structure FieldTest where
  name : String
  hasValue : Bool
deriving Repr, DecidableEq

/-- A threshold for the lines whose origin's path starts with the target, in the span of a name
and with a field. -/
structure Directive where
  target : Option String
  span : Option String
  field : Option FieldTest
  threshold : Threshold
deriving Repr, DecidableEq

/-- A directive for all lines. -/
def Directive.forAll (threshold : Threshold) : Directive := ⟨none, none, none, threshold⟩

/-! ### Reading -/

/-- The threshold of a number. -/
def numberedThreshold? (n : Nat) : Option Threshold :=
  match n with
  | 0 => some none
  | 1 => some (some .error)
  | 2 => some (some .warn)
  | 3 => some (some .info)
  | 4 => some (some .debug)
  | 5 => some (some .trace)
  | _ => none

/-- The threshold of a name in any case. -/
def namedThreshold? (text : String) : Option Threshold :=
  let lower := Text.lowerAscii text
  if lower = "off" then some none
  else if lower = "error" then some (some .error)
  else if lower = "warn" then some (some .warn)
  else if lower = "info" then some (some .info)
  else if lower = "debug" then some (some .debug)
  else if lower = "trace" then some (some .trace)
  else none

/-- The threshold of a name or of a number below 2 ^ 64. -/
def threshold? (chars : List Char) : Option Threshold :=
  match Text.natural? 0xFFFFFFFFFFFFFFFF chars with
  | some n => numberedThreshold? n
  | none => namedThreshold? (String.ofList chars)

/-- Whether a target can start with a character. -/
def startsTarget (c : Char) : Bool :=
  c == '-' || c == ':' || c == '_' || Text.isAlphanumeric c

/-- Bytes that characters take up. -/
def size (chars : List Char) : Nat := chars.foldl (fun n c => n + c.utf8Size) 0

/-- The characters from a byte on. -/
def dropBytes : Nat → List Char → List Char
  | _, [] => []
  | n, c :: rest => if n = 0 then c :: rest else dropBytes (n - c.utf8Size) rest

/-- The characters in front of a byte. -/
def takeBytes : Nat → List Char → List Char
  | _, [] => []
  | n, c :: rest => if n = 0 then [] else c :: takeBytes (n - c.utf8Size) rest

/-- Reading of an item: the item as written, the place reached, in bytes, and what follows it.
Places are those of the item without blanks at its ends, while its parts are cut from the item as
written; blanks in front shift the parts. -/
structure Cursor where
  written : List Char
  place : Nat
  rest : List Char

namespace Cursor

/-- The part from a place to the place reached. -/
def since (c : Cursor) (start : Nat) : List Char :=
  takeBytes (c.place - start) (dropBytes start c.written)

/-- The part from the place reached to the end. -/
def remainder (c : Cursor) : List Char := dropBytes c.place c.written

/-- Moves on to the first of the marks. -/
def seek (c : Cursor) (marks : List Char) : Cursor :=
  let passed := c.rest.takeWhile fun d => !marks.contains d
  { c with place := c.place + size passed, rest := c.rest.drop passed.length }

/-- Moves past a mark. -/
def pass (c : Cursor) (mark : Char) : Option Cursor :=
  match c.rest with
  | d :: rest => if d = mark then some { c with place := c.place + d.utf8Size, rest } else none
  | [] => none

/-- The level at the place reached; without one, everything is shown. -/
def level? (c : Cursor) : Option Threshold :=
  if c.remainder.isEmpty then some (some .trace) else threshold? c.remainder

/-- The level after an equals sign, or none at the end. -/
def assigned? (c : Cursor) : Option Threshold :=
  if c.rest.isEmpty then some (some .trace) else (c.pass '=').bind level?

/-- A field and its value; what follows a second equals sign does not count. -/
def field? (chars : List Char) : Option FieldTest :=
  match chars.splitOn '=' with
  | name :: value :: _ =>
    if isFieldValue value then some ⟨String.ofList name, true⟩ else none
  | _ => if chars.isEmpty then none else some ⟨String.ofList chars, false⟩

/-- Reads a span after its bracket, and the level after it. -/
def span? (target : Option String) (c : Cursor) : Option Directive := do
  let stop := c.seek [']', '\x7b']
  let name := String.ofList (stop.since c.place)
  match stop.pass ']' with
  | some after => pure ⟨target, some name, none, ← after.assigned?⟩
  | none =>
    let start ← stop.pass '\x7b'
    let stop := start.seek ['\x7d']
    let field ← field? (stop.since start.place)
    let after ← (← stop.pass '\x7d').pass ']'
    pure ⟨target, if name.isEmpty then none else some name, some field, ← after.assigned?⟩

/-- Reads a directive at its first character. -/
def directive? (c : Cursor) : Option Directive :=
  match c.pass '[' with
  | some after => after.span? none
  | none =>
    if !c.rest.head?.any startsTarget then none
    else
      let stop := c.seek ['=', '[']
      let target := some (String.ofList (stop.since c.place))
      if stop.rest.isEmpty then
        match threshold? c.remainder with
        | some threshold => some (.forAll threshold)
        | none => some ⟨some (String.ofList c.remainder), none, none, some .trace⟩
      else
        match stop.pass '[' with
        | some after => after.span? target
        | none => (stop.assigned?).map fun threshold => ⟨target, none, none, threshold⟩

end Cursor

/-- Reads a directive: a level, a target, or parts of the full form. -/
def directive? (item : List Char) : Option Directive :=
  Cursor.directive? ⟨item, 0, Text.trim item⟩

/-- Reads directives with commas between them; empty items are left out. Without an item, errors
only are shown. -/
def directives? (text : String) : Option (List Directive) :=
  let items := (text.toList.splitOn ',').filter fun item => !item.isEmpty
  if items.isEmpty then some [.forAll (some .error)] else items.mapM directive?

/-! ### Showing -/

/-- Whether a directive can speak of a line: one with a span or a value does not, and a field has
to be the message. -/
def Directive.concerns (d : Directive) (origin : Origin) : Bool :=
  d.span.isNone
    && d.field.all (fun field => field.name == "message" && !field.hasValue)
    && d.target.all (fun target => target.toList.isPrefixOf origin.path.toList)

/-- How specific a directive is: by the length of its target first, and then by its field. -/
def Directive.rank (d : Directive) : Nat :=
  2 * (d.target.elim 0 fun target => target.utf8ByteSize + 1) + d.field.elim 0 fun _ => 1

/-- The more specific of two directives; of two alike the later one. -/
def preferred (best : Option Directive) (d : Directive) : Option Directive :=
  match best with
  | none => some d
  | some other => if d.rank < other.rank then best else some d

/-- The threshold for an origin: that of the most specific directive for it. -/
def thresholdFor (directives : List Directive) (origin : Origin) : Threshold :=
  ((directives.filter fun d => d.concerns origin).foldl preferred none).bind Directive.threshold

/-- Whether directives show a line. -/
def shown (directives : List Directive) (line : Line) : Bool :=
  line.level.shownAt (thresholdFor directives line.origin)

end MeterRadio.Trace
