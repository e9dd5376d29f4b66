/-
  Decoders: from drafts to values of the program. A decoder goes through its draft in the order
  of the text and reports the first fault it meets. Each container takes one level of the depth
  that a text may have. Two kinds of texts are left out of account: those in which an object has a
  key twice, and those that give a record as the array of its values. The decoders take the former
  and refuse the latter, and nothing is meant by that.
-/
import MiddleEnd.Json.Draft

namespace MiddleEnd

/-- Why a text is refused. -/
inductive ReadError where
  /-- It is not JSON. -/
  | malformed
  /-- It ends too early. -/
  | truncated
  /-- It is JSON of another shape. -/
  | mismatch
  deriving DecidableEq, Repr

/-- The word for a kind of failure. -/
def ReadError.category : ReadError → String
  | .malformed => "syntax"
  | .truncated => "eof"
  | .mismatch => "data"

/-- The failure that a place where scanning stopped amounts to. -/
def Stop.error : Stop → ReadError
  | .malformed => .malformed
  | .truncated => .truncated
  | .openNumber => .truncated
  | .openPair => .malformed

/-- The fault of a stop inside what is passed over unread. There an open number is malformed, and
    half a surrogate pair is none. -/
def Stop.passedError : Stop → ReadError
  | .malformed => .malformed
  | .truncated => .truncated
  | .openNumber => .malformed
  | .openPair => .truncated

/-- A value, or why there is none. -/
abbrev Decoded := Except ReadError

namespace Decode

/-- How deep arrays and objects may be nested. -/
def depthLimit : Nat := 127

/-- The fault of a draft where a value of another kind is wanted. -/
def refusal : Draft → ReadError
  | .stop why => why.error
  | .unreadable => .malformed
  | _ => .mismatch

/-- A value that is complete only if its text did not stop in the middle. -/
def finish (stop : Option Stop) (a : α) : Decoded α :=
  match stop with
  | none => .ok a
  | some why => .error why.error

/-- Reads a text. -/
def string : Draft → Decoded String
  | .string s => .ok s
  | d => .error (refusal d)

/-- Reads a truth value. -/
def bool : Draft → Decoded Bool
  | .bool b => .ok b
  | d => .error (refusal d)

/-- A whole number between two bounds. -/
def int (least greatest : Int) : Draft → Decoded Int
  | .number (.int i) => if least ≤ i ∧ i ≤ greatest then .ok i else .error .mismatch
  | d => .error (refusal d)

/-- Reads a number of 8 bits without a sign. -/
def uint8 (d : Draft) : Decoded UInt8 := do return (← int 0 255 d).toNat.toUInt8

/-- Reads a number of 16 bits without a sign. -/
def uint16 (d : Draft) : Decoded UInt16 := do return (← int 0 65535 d).toNat.toUInt16

/-- Reads a number of 32 bits without a sign. -/
def uint32 (d : Draft) : Decoded UInt32 := do return (← int 0 4294967295 d).toNat.toUInt32

/-- Reads a number of 64 bits without a sign. -/
def uint64 (d : Draft) : Decoded UInt64 := do
  return (← int 0 18446744073709551615 d).toNat.toUInt64

/-- Reads a number of 8 bits with a sign. -/
def int8 (d : Draft) : Decoded Int8 := do return (← int (-128) 127 d).toInt8

/-- Reads a number of 16 bits with a sign. -/
def int16 (d : Draft) : Decoded Int16 := do return (← int (-32768) 32767 d).toInt16

/-- Reads a number of 32 bits with a sign. -/
def int32 (d : Draft) : Decoded Int32 := do return (← int (-2147483648) 2147483647 d).toInt32

/-- Reads a number of 64 bits with a sign. -/
def int64 (d : Draft) : Decoded Int64 := do
  return (← int (-9223372036854775808) 9223372036854775807 d).toInt64

/-- Whole numbers are accepted for floating-point ones and rounded directly. -/
def double : Draft → Decoded Double
  | .number (.int i) => .ok (.ofInt .double i)
  | .number (.double v) => .ok v
  | d => .error (refusal d)

/-- A double is rounded once more. -/
def single : Draft → Decoded Single
  | .number (.int i) => .ok (.ofInt .single i)
  | .number (.double v) => .ok (v.convert .single)
  | d => .error (refusal d)

/-- A text of exactly one character. -/
def char (d : Draft) : Decoded Char := do
  match (← string d).toList with
  | [c] => return c
  | _ => throw .mismatch

/-- Reads a value that may be null. -/
def optional (decode : Draft → Decoded α) : Draft → Decoded (Option α)
  | .null => .ok none
  | d => some <$> decode d

/-- The fault of a container below the last level, or of anything else. -/
def tooDeep : Draft → ReadError
  | .array .. => .malformed
  | .object .. => .malformed
  | d => refusal d

/-- The items of an array. -/
def items (item : Draft → Decoded α) : Draft → Decoded (List α)
  | .array ds stop => do
    let as ← ds.mapM item
    finish stop as
  | d => .error (refusal d)

/-- An array whose items lie one level deeper. -/
def list (item : Nat → Draft → Decoded α) : (depth : Nat) → Draft → Decoded (List α)
  | 0, .array .. => .error .malformed
  | 0, d => .error (refusal d)
  | depth + 1, d => items (item depth) d

/-- The fields of an object; a key that is no text is absent. -/
abbrev Fields := List (Option String × Draft)

/-- The fields one after another; their keys must be readable. -/
def foldFields (step : α → String → Draft → Decoded α) (start : α) (fs : Fields) : Decoded α :=
  fs.foldlM (fun a (key, d) =>
    match key with
    | some key => step a key d
    | none => .error .malformed) start

/-- A field of unknown name leaves the value as it is, and is passed over. -/
def passing (step : α → String → Draft → Decoded α) (a : α) (key : String) (d : Draft) :
    Decoded α := do
  let a ← step a key d
  match d.stop? with
  | some why => .error why.passedError
  | none => .ok a

/-- Fields gathered one after another, from a value that the required ones replace. Fields of
    unknown names are left to `step` to pass over. Keys are taken to be distinct: of a key that is
    there twice the later value stays. -/
def gather (keys : List String) (step : α → String → Draft → Decoded α) (start : α) (fs : Fields)
    (stop : Option Stop) : Decoded α := do
  let a ← foldFields (passing step) start fs
  let a ← finish stop a
  if keys.all fun key => (fs.lookup (some key)).isSome then return a else throw .mismatch

/-- An object of a closed set of fields, `keys` being the required ones. The form in which the
    values alone stand in an array is not read. -/
def record (keys : List String) (step : α → String → Draft → Decoded α) (start : α) :
    Draft → Decoded α
  | .object fs stop => gather keys step start fs stop
  | d => .error (refusal d)

/-- A required field of an object that has been taken in whole. Keys are taken to be distinct: of a
    key that is there twice the earlier value counts. -/
def field (fs : Fields) (key : String) (decode : Draft → Decoded α) : Decoded α :=
  match fs.lookup (some key) with
  | some d => decode d
  | none => .error .mismatch

/-- A field with a default. -/
def fieldD (fs : Fields) (key : String) (decode : Draft → Decoded α) (default : α) : Decoded α :=
  match fs.lookup (some key) with
  | some d => decode d
  | none => .ok default

/-- A field that may be absent or null. -/
def field? (fs : Fields) (key : String) (decode : Draft → Decoded α) : Decoded (Option α) :=
  fieldD fs key (optional decode) none

/-- A variant of a closed set: its name alone, or an object with the name as its only key. -/
def variant : Draft → Decoded (String × Option Draft)
  | .string name => .ok (name, none)
  | .object [(some name, content)] none => .ok (name, some content)
  | d => .error (refusal d)

/-- The content of a variant that has none. -/
def noContent : Option Draft → Decoded Unit
  | none => .ok ()
  | some .null => .ok ()
  | some (.object [] none) => .ok ()
  | some d => .error (refusal d)

mutual

/-- The first fault of a draft that is taken in whole before it is looked at. -/
def whole (depth : Nat) : Draft → Decoded Unit
  | .array ds stop =>
    if depth = 0 then .error .malformed
    else do
      wholeItems (depth - 1) ds
      finish stop ()
  | .object fs stop =>
    if depth = 0 then .error .malformed
    else do
      wholeFields (depth - 1) fs
      finish stop ()
  | .stop why => .error why.error
  | .unreadable => .error .malformed
  | _ => .ok ()

/-- Items that are complete and not too deep. -/
def wholeItems (depth : Nat) : List Draft → Decoded Unit
  | [] => .ok ()
  | d :: ds => do
    whole depth d
    wholeItems depth ds

/-- Fields that are complete and not too deep. -/
def wholeFields (depth : Nat) : List (Option String × Draft) → Decoded Unit
  | [] => .ok ()
  | (none, _) :: _ => .error .malformed
  | (some _, d) :: fs => do
    whole depth d
    wholeFields depth fs

end

/-- The value of a text, behind which nothing but blanks may stand. -/
def text (decode : Nat → Draft → Decoded α) (t : String) : Decoded α :=
  match Draft.scan t with
  | (d, .error why) => do
    let _ ← decode depthLimit d
    throw why.error
  | (d, .ok rest) => do
    let a ← decode depthLimit d
    if (Draft.skipBlank rest).isEmpty then return a else throw .malformed

end Decode

end MiddleEnd
