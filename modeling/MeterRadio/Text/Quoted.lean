/-
Module: MeterRadio.Text.Quoted
Purpose: Texts and paths shown between double quotes, with escapes for what could not be seen.
Main exports: Text.escape, Text.quoted, Text.quotedPath
-/
import MeterRadio.Text.Visible

namespace MeterRadio.Text

/-- The escape of one character: a short one for NUL, tab, line ends, backslash and double
quote, the code point in braces for anything hidden, the character itself otherwise. -/
def escape (c : Char) : List Char :=
  if c = '\x00' then ['\\', '0']
  else if c = '\t' then ['\\', 't']
  else if c = '\r' then ['\\', 'r']
  else if c = '\n' then ['\\', 'n']
  else if c = '"' then ['\\', '"']
  else if c = '\\' then ['\\', '\\']
  else if isVisible c then [c]
  else ['\\', 'u', '\x7b'] ++ Nat.toDigits 16 c.toNat ++ ['\x7d']

/-- The text between double quotes, each character escaped. -/
def quoted (text : String) : String :=
  String.ofList ('"' :: text.toList.flatMap escape ++ ['"'])

/-- The escape of a character of a path, in which single quotes have a backslash as well. -/
def escapeInPath (c : Char) : List Char :=
  if c = '\'' then ['\\', '\''] else escape c

/-- The path between double quotes, each character escaped. -/
def quotedPath (path : String) : String :=
  String.ofList ('"' :: path.toList.flatMap escapeInPath ++ ['"'])

end MeterRadio.Text
