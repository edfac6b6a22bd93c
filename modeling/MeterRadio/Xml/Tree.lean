/-
Module: MeterRadio.Xml.Tree
Purpose: Elements and texts, and their written form.
Main exports: Xml.Node, Xml.element, Xml.render, Xml.Node.scalar?, Xml.group?
-/
import MeterRadio.Text.Numeral

namespace MeterRadio.Xml

/-- A part of a document. A text is missing where a reference in it cannot be resolved. -/
inductive Node where
  | text (content : Option String)
  /-- An element with the name as written, whether its attributes are well-formed, and its
  content. -/
  | element (tag : String) (sound : Bool) (children : List Node)
deriving Repr, Inhabited

/-- The part of a name after its first colon, or all of it. -/
def localName (tag : String) : String :=
  match tag.toList.dropWhile (· != ':') with
  | [] => tag
  | _ :: rest => String.ofList rest

/-! ### Writing -/

/-- Escape of a character inside a text. -/
def escape (c : Char) : List Char :=
  if c = '<' then "&lt;".toList
  else if c = '>' then "&gt;".toList
  else if c = '&' then "&amp;".toList
  else if c = '\'' then "&apos;".toList
  else if c = '"' then "&quot;".toList
  else [c]

/-- An element with the given written content. Without content it is one tag. -/
def element (tag : String) (content : List Char) : List Char :=
  if content.isEmpty then ['<'] ++ tag.toList ++ ['/', '>']
  else ['<'] ++ tag.toList ++ ['>'] ++ content ++ ['<', '/'] ++ tag.toList ++ ['>']

/-- An element that holds a text. -/
def textElement (tag text : String) : List Char :=
  element tag (text.toList.flatMap escape)

/-- An element that holds a number. -/
def numberElement (tag : String) (n : Nat) : List Char :=
  textElement tag (Text.decimal n)

/-- One element for each number. -/
def numberElements (tag : String) (values : List Nat) : List Char :=
  values.flatMap (numberElement tag)

/-! ### Reading fields -/

/-- The text of an element that holds at most a text. -/
def Node.scalar? : Node → Option String
  | .text content => content
  | .element _ _ [] => some ""
  | .element _ _ [.text content] => content
  | .element .. => none

/-- A number of at most `limit` in an element or a text. -/
def Node.natural? (limit : Nat) (node : Node) : Option Nat :=
  node.scalar?.bind fun text => Text.natural? limit text.toList

/-- Whether a node belongs to a run of elements of one name: another of them, or a text. -/
def continues (tag : String) : Node → Bool
  | .text _ => true
  | .element other _ _ => other == tag

/-- The fields of an element in order, each with its nodes. A field named in `lists` takes in
the run that follows it; at most `fuel` nodes are looked at. -/
def groups (lists : List String) : Nat → List Node → List (String × List Node)
  | 0, _ => []
  | _, [] => []
  | fuel + 1, .text _ :: rest => groups lists fuel rest
  | fuel + 1, .element tag sound children :: rest =>
    let node : Node := .element tag sound children
    if lists.contains (localName tag) then
      (localName tag, node :: rest.takeWhile (continues tag))
        :: groups lists fuel (rest.dropWhile (continues tag))
    else (localName tag, [node]) :: groups lists fuel rest

/-- Whether a node is a text that could not be read. -/
def isBroken : Node → Bool
  | .text none => true
  | _ => false

/-- Whether a node is or starts with a text that could not be read. Even of a field that is
not asked for the start is read. -/
def startsBroken : Node → Bool
  | .text content => content.isNone
  | .element _ _ children => children.head?.any isBroken

/-- The fields of an element. Its attributes have to be well-formed, its texts readable, and so
the texts at the start of its fields. -/
def Node.fields? (lists : List String) : Node → Option (List (String × List Node))
  | .element _ sound children =>
    if sound && !children.any startsBroken then
      some (groups lists (children.length + 1) children)
    else none
  | .text _ => none

/-- The nodes of the only field of a name. -/
def group? (name : String) (fields : List (String × List Node)) : Option (List Node) :=
  match fields.filter (fun f => f.1 == name) with
  | [(_, nodes)] => some nodes
  | _ => none

/-- The node of the only field of a name. -/
def field? (name : String) (fields : List (String × List Node)) : Option Node :=
  (group? name fields).bind List.head?

end MeterRadio.Xml
