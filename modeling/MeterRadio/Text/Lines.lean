/-
Module: MeterRadio.Text.Lines
Purpose: The lines that a text takes up when it is shown.
Main exports: Text.lines
-/

namespace MeterRadio.Text

/-- Drops the carriage return that a line feed follows. -/
def withoutReturn (chars : List Char) : List Char :=
  if chars.getLast? = some '\r' then chars.dropLast else chars

/-- The pieces between line feeds, each but the last without a carriage return at its end. -/
def linesOf : List (List Char) → List (List Char)
  | [] => []
  | [last] => [last]
  | line :: next :: rest => withoutReturn line :: linesOf (next :: rest)

/-- The lines of a text that ends with a line. -/
def lines (text : String) : List String :=
  (linesOf (text.toList.splitOn '\n')).map String.ofList

end MeterRadio.Text
