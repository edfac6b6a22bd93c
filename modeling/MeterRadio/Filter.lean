/-
Module: MeterRadio.Filter
Purpose: Which messages are logged: by meter and by meter type.
Main exports: MeterFilter, MeterFilter.accepts, MeterFilter.meters, MeterFilter.types
-/
import MeterRadio.Message

namespace MeterRadio

/-- Inclusion lists. An empty list sets no condition. -/
structure MeterFilter where
  includedIds : List UInt32
  includedTypes : List UInt8
deriving Repr, DecidableEq

namespace MeterFilter

/-- Whether a meter and its type are both included. -/
def includes (f : MeterFilter) (id : UInt32) (type : UInt8) : Bool :=
  (f.includedIds.isEmpty || f.includedIds.contains id)
    && (f.includedTypes.isEmpty || f.includedTypes.contains type)

/-- Whether a message passes. -/
def accepts (f : MeterFilter) (m : Message) : Bool :=
  f.includes m.meterId m.meterType

/-- Whether the filter lets everything through. -/
def isEmpty (f : MeterFilter) : Bool :=
  f.includedIds.isEmpty && f.includedTypes.isEmpty

/-- Distinct numbers in ascending order. -/
def ascending (values : List Nat) : List Nat :=
  values.eraseDups.mergeSort (fun a b => a ≤ b)

/-- The included meters, each once, in ascending order. -/
def meters (f : MeterFilter) : List Nat :=
  ascending (f.includedIds.map UInt32.toNat)

/-- The included meter types, each once, in ascending order. -/
def types (f : MeterFilter) : List Nat :=
  ascending (f.includedTypes.map UInt8.toNat)

/-- Numbers between braces, with a comma and a blank between them. -/
def braced (values : List Nat) : String :=
  "\x7b" ++ String.intercalate ", " (values.map Text.decimal) ++ "\x7d"

end MeterFilter
end MeterRadio
