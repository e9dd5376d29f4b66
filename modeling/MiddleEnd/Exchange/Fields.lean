/-
  Reading the exchange form: fields of objects, where a field that is null counts as absent.
-/
import MiddleEnd.Json.Decode

namespace MiddleEnd.Exchange

/-- A field as it stands. -/
def raw? (d : Draft) (key : String) : Option Draft :=
  match d with
  | .object fs _ => fs.lookup (some key)
  | _ => none

/-- A field that is neither absent nor null. -/
def given? (d : Draft) (key : String) : Option Draft :=
  match raw? d key with
  | some .null => none
  | other => other

/-- A required field. -/
def field (d : Draft) (key : String) (read : Draft → Decoded α) : Decoded α :=
  match raw? d key with
  | some v => read v
  | none => .error .mismatch

/-- Reads a field that may be absent. -/
def field? (d : Draft) (key : String) (read : Draft → Decoded α) : Decoded (Option α) :=
  match given? d key with
  | some v => do return some (← read v)
  | none => return none

/-- Reads a field, or takes a default. -/
def fieldD (d : Draft) (key : String) (read : Draft → Decoded α) (default : α) : Decoded α := do
  return (← field? d key read).getD default

/-- A flag that is off where it is absent. -/
def flag (d : Draft) (key : String) : Decoded Bool := fieldD d key Decode.bool false

/-- Reads a field that is a text. -/
def text (d : Draft) (key : String) : Decoded String := field d key Decode.string

/-- Reads a list. -/
def items (read : Draft → Decoded α) : Draft → Decoded (List α)
  | .array ds _ => ds.mapM read
  | _ => .error .mismatch

/-- The entry of a table that a text names. -/
def entry (table : List (String × α)) (d : Draft) : Decoded α := do
  match table.lookup (← Decode.string d) with
  | some a => return a
  | none => throw .mismatch

/-- A number, or its decimal text. -/
def int : Draft → Decoded Int
  | .number (.int i) => .ok i
  | .string s =>
    match s.toInt? with
    | some i => .ok i
    | none => .error .mismatch
  | _ => .error .mismatch

/-- Reads a number; below zero it is zero. -/
def nat (d : Draft) : Decoded Nat := do return (← int d).toNat

end MiddleEnd.Exchange
