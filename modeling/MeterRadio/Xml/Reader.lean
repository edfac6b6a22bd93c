/-
Module: MeterRadio.Xml.Reader
Purpose: Reading the first element of a document.
Main exports: Xml.Token, Xml.tokens, Xml.parse?
-/
import MeterRadio.Bytes
import MeterRadio.Xml.Tree

namespace MeterRadio.Xml

/-- Blank, tab, line feed and carriage return. -/
def isSpace (c : Char) : Bool :=
  c == ' ' || c == '\t' || c == '\n' || c == '\r'

/-! ### References -/

/-- The value of a character reference: at most six hexadecimal or seven decimal digits. -/
def reference? (body : List Char) : Option Char := do
  let code ← match body with
    | 'x' :: digits =>
      if digits.isEmpty || 6 < digits.length then none
      else digits.foldlM (fun value c => (Bytes.digitValue? c).map (16 * value + ·)) 0
    | digits => if 7 < digits.length then none else Text.digits? digits
  if code ≠ 0 ∧ (code < 0xD800 ∨ (0xDFFF < code ∧ code < 0x110000)) then
    pure (Char.ofNat code)
  else none

/-- The character of an entity. -/
def entity? (name : List Char) : Option Char :=
  match name with
  | '#' :: body => reference? body
  | _ =>
    if name = "lt".toList then some '<'
    else if name = "gt".toList then some '>'
    else if name = "amp".toList then some '&'
    else if name = "apos".toList then some '\''
    else if name = "quot".toList then some '"'
    else none

/-- Resolves the references of a text, looking at `fuel` characters at most. -/
def unescapeFrom : Nat → List Char → Option (List Char)
  | 0, _ => none
  | _, [] => some []
  | fuel + 1, c :: rest =>
    if c = '&' then do
      let name := rest.takeWhile fun d => d != '&' && d != ';'
      match rest.drop name.length with
      | ';' :: after =>
        let resolved ← entity? name
        (unescapeFrom fuel after).map (resolved :: ·)
      | _ => none
    else (unescapeFrom fuel rest).map (c :: ·)

/-- Resolves the references of a text. -/
def unescape? (chars : List Char) : Option (List Char) :=
  unescapeFrom (chars.length + 1) chars

/-! ### Tokens -/

/-- A piece of markup, or the text between two pieces. -/
inductive Token where
  | text (raw : List Char)
  | cdata (raw : List Char)
  /-- A start tag: what stands between the angle brackets, and whether the element ends with
  it. -/
  | start (raw : List Char) (closed : Bool)
  | stop (name : List Char)
  /-- A comment, a declaration or a processing instruction. -/
  | ignored
  | doctype
  | malformed
deriving Repr, DecidableEq

/-- What stands before the first occurrence of a mark, and what stands after it. -/
def splitAt? (mark : List Char) : List Char → Option (List Char × List Char)
  | [] => none
  | c :: rest =>
    if (c :: rest).take mark.length = mark then some ([], (c :: rest).drop mark.length)
    else (splitAt? mark rest).map fun (before, after) => (c :: before, after)

/-- The content of a tag up to its closing bracket; brackets between quotes do not close it. -/
def tag? : Option Char → List Char → Option (List Char × List Char)
  | _, [] => none
  | quote, c :: rest =>
    if quote = none ∧ c = '>' then some ([], rest)
    else
      let quote := match quote with
        | none => if c = '"' ∨ c = '\'' then some c else none
        | some open_ => if c = open_ then none else some open_
      (tag? quote rest).map fun (content, after) => (c :: content, after)

/-- The content of a document type declaration, `depth` brackets deep, and what follows it. -/
def doctype? : Nat → List Char → Option (List Char × List Char)
  | _, [] => none
  | depth, c :: rest =>
    if c = '>' ∧ depth = 0 then some ([], rest)
    else
      let depth := if c = '<' then depth + 1 else if c = '>' then depth - 1 else depth
      (doctype? depth rest).map fun (content, after) => (c :: content, after)

/-- What stands before the next closing bracket, or before the end, and what stands after it. -/
def toBracket (chars : List Char) : List Char × List Char :=
  let content := chars.takeWhile (· != '>')
  (content, chars.drop (content.length + 1))

/-- White space of ASCII: that between tags, and the form feed. -/
def isAsciiSpace (c : Char) : Bool := isSpace c || c == '\x0c'

/-- The name in an end tag. White space after it does not count, but white space alone is a
name. -/
def stopName (content : List Char) : List Char :=
  let name := (content.reverse.dropWhile isAsciiSpace).reverse
  if name.isEmpty then content else name

/-- Whether the content of a processing instruction is closed by a question mark. -/
def closesInstruction (content : List Char) : Bool :=
  2 ≤ content.length && content.getLast? == some '?'

/-- What a token leaves behind, or the mark of a document that cannot be read further. -/
def orMalformed (found : Option (Token × List Char)) : Token × List Char :=
  found.getD (.malformed, [])

/-- Reads the markup after an opening bracket. -/
def markup (chars : List Char) : Token × List Char :=
  match chars with
  | '!' :: rest =>
    if rest.take 2 = "--".toList then
      orMalformed ((splitAt? "-->".toList (rest.drop 2)).map fun (_, after) => (.ignored, after))
    else if (rest.take 7).map Char.toUpper = "[CDATA[".toList then
      orMalformed ((splitAt? "]]>".toList (rest.drop 7)).map
        fun (content, after) => (.cdata content, after))
    else if (rest.take 7).map Char.toUpper = "DOCTYPE".toList then
      orMalformed ((doctype? 0 (rest.drop 7)).map fun (content, after) =>
        (if content.all isSpace then .malformed else .doctype, after))
    else (.malformed, [])
  | '?' :: rest =>
    let (content, after) := toBracket rest
    (if closesInstruction content then .ignored else .malformed, after)
  | '/' :: rest =>
    let (content, after) := toBracket rest
    (.stop (stopName content), after)
  | _ =>
    orMalformed ((tag? none chars).map fun (content, after) =>
      if content.getLast? = some '/' then (.start content.dropLast true, after)
      else (.start content false, after))

/-- The tokens of a document, at most `fuel` of them. -/
def tokensFrom : Nat → List Char → List Token
  | 0, _ => []
  | _, [] => []
  | fuel + 1, c :: rest =>
    if c = '<' then
      let (token, after) := markup rest
      token :: tokensFrom fuel after
    else
      let raw := (c :: rest).takeWhile (· != '<')
      .text raw :: tokensFrom fuel ((c :: rest).dropWhile (· != '<'))

/-- The tokens of a document. -/
def tokens (chars : List Char) : List Token :=
  tokensFrom (chars.length + 1) chars

/-! ### Attributes -/

/-- Whether attributes are well-formed: names, each once, with values between quotes; at most
`fuel` of them, the names met so far given. Any character can start a name. -/
def attributesSound : Nat → List (List Char) → List Char → Bool
  | 0, _, _ => false
  | fuel + 1, seen, chars =>
    match chars.dropWhile isSpace with
    | [] => true
    | first :: chars =>
      let name := first :: chars.takeWhile fun c => c != '=' && !isSpace c
      match (chars.drop (name.length - 1)).dropWhile isSpace with
      | '=' :: rest =>
        match rest.dropWhile isSpace with
        | quote :: value =>
          if (quote == '"' || quote == '\'') && !seen.contains name then
            match splitAt? [quote] value with
            | some (_, after) => attributesSound fuel (name :: seen) after
            | none => false
          else false
        | [] => false
      | _ => false

/-! ### Elements -/

/-- A text or a literal section between two tags. -/
structure Piece where
  literal : Bool
  raw : List Char

/-- Drops the white space at the start of the texts in front, and texts that are nothing else. -/
def trimFront : List Piece → List Piece
  | [] => []
  | piece :: rest =>
    if piece.literal then piece :: rest
    else
      match piece.raw.dropWhile isSpace with
      | [] => trimFront rest
      | raw => ⟨false, raw⟩ :: rest

/-- Drops the white space at the end of the last piece, if it is a text. -/
def trimBack (pieces : List Piece) : List Piece :=
  match pieces.reverse with
  | [] => []
  | piece :: before =>
    if piece.literal then pieces
    else (⟨false, (piece.raw.reverse.dropWhile isSpace).reverse⟩ :: before).reverse

/-- The text that consecutive pieces make up together, if anything is left of them. -/
def textNode (pieces : List Piece) : List Node :=
  let kept := trimBack (trimFront pieces)
  if kept.isEmpty || (kept.length == 1 && kept.all fun p => !p.literal && p.raw.isEmpty) then []
  else
    let parts := kept.mapM fun p => if p.literal then some p.raw else unescape? p.raw
    [.text (parts.map fun parts => String.ofList parts.flatten)]

/-- An element that is being read: its tag, whether its attributes are well-formed, and its
content so far in reverse order. -/
structure Frame where
  tag : String
  sound : Bool
  done : List Node

/-- The frame that a start tag opens. -/
def Frame.ofTag (raw : List Char) : Frame :=
  let name := raw.takeWhile fun c => !isSpace c
  { tag := String.ofList name
    sound := attributesSound (raw.length + 1) [] (raw.drop name.length)
    done := [] }

/-- The frame with more content. -/
def Frame.add (frame : Frame) (nodes : List Node) : Frame :=
  { frame with done := nodes.reverse ++ frame.done }

/-- The element of a frame. -/
def Frame.close (frame : Frame) : Node :=
  .element frame.tag frame.sound frame.done.reverse

/-- Builds the first element from tokens. The frames are the open elements, the innermost
first; the pieces are what stands after the last tag, in reverse order. -/
def build : List Frame → List Piece → List Token → Option Node
  | _, _, [] => none
  | frames, pieces, token :: rest =>
    match token, frames with
    | .text raw, _ => build frames (⟨false, raw⟩ :: pieces) rest
    | .cdata raw, _ => build frames (⟨true, raw⟩ :: pieces) rest
    | .ignored, _ => build frames pieces rest
    | .malformed, _ => none
    | .doctype, [] => if (textNode pieces.reverse).isEmpty then build [] [] rest else none
    | .doctype, frame :: outer => build (frame.add (textNode pieces.reverse) :: outer) [] rest
    | .start raw closed, [] =>
      if !(textNode pieces.reverse).isEmpty then none
      else if closed then some (Frame.ofTag raw).close
      else build [Frame.ofTag raw] [] rest
    | .start raw closed, frame :: outer =>
      let frame := frame.add (textNode pieces.reverse)
      if closed then build (frame.add [(Frame.ofTag raw).close] :: outer) [] rest
      else build (Frame.ofTag raw :: frame :: outer) [] rest
    | .stop _, [] => none
    | .stop name, frame :: outer =>
      if frame.tag ≠ String.ofList name then none
      else
        let node := (frame.add (textNode pieces.reverse)).close
        match outer with
        | [] => some node
        | parent :: others => build (parent.add [node] :: others) [] rest

/-- Drops the mark that tells the order of bytes. -/
def withoutMark : List Char → List Char
  | '\ufeff' :: rest => rest
  | chars => chars

/-- Reads the first element of a document; what follows it is not looked at. -/
def parse? (text : String) : Option Node :=
  build [] [] (tokens (withoutMark text.toList))

end MeterRadio.Xml
