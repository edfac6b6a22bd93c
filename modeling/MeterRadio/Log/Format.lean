/-
Module: MeterRadio.Log.Format
Purpose: The formats of the log and their names.
Main exports: Log.Format, Log.Format.name, Log.Format.ofName?
-/
import MeterRadio.Text.Numeral
import MeterRadio.Text.Quoted

namespace MeterRadio.Log

/-- How entries are written. -/
inductive Format where
  | plain
  | json
  | csv
  | xml
deriving Repr, DecidableEq

namespace Format

/-- The format used where none is asked for. -/
def default : Format := .plain

/-- Name of a format. -/
def name : Format → String
  | .plain => "Plain"
  | .json => "Json"
  | .csv => "Csv"
  | .xml => "Xml"

/-- The format of a name, whatever the case of its ASCII letters. -/
def ofName? (text : String) : Option Format :=
  let lower := Text.lowerAscii text
  if lower = "plain" then some .plain
  else if lower = "json" then some .json
  else if lower = "csv" then some .csv
  else if lower = "xml" then some .xml
  else none

/-- The wording for a name that is no format. -/
def unknownMessage (text : String) : String :=
  "invalid log format: " ++ Text.quoted text ++ " (expected plain, json, csv or xml)"

end Format
end MeterRadio.Log
