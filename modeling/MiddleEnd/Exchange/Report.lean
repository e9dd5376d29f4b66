/-
  The exchange form of positions, diagnostics, errors and events.
-/
import MiddleEnd.Diagnostic
import MiddleEnd.Exchange.Code
import MiddleEnd.Exchange.Fields
import MiddleEnd.Trace

namespace MiddleEnd.Exchange

/-- Writes a position. -/
def positionJson (p : Position) : Json :=
  .object [("line", .ofNat p.line), ("column", .ofNat p.column), ("offset", .ofNat p.offset)]

/-- The letter that stands for a kind of error. -/
def kindLetter : ErrorKind → String
  | .structural => "T"
  | .reference => "R"

/-- Writes a diagnostic. -/
def diagnosticJson (d : Diagnostic) : Json :=
  .object [("level", .string d.level.text), ("kind", .string (kindLetter d.kind)),
    ("argument", .string d.argument), ("src", .option sourceJson d.source),
    ("notes", .strings d.notes)]

/-- The kinds of errors by their letters. -/
def errorKinds : List (String × ErrorKind) :=
  [.structural, .reference].map fun k => (kindLetter k, k)

/-- The levels by their words. -/
def levels : List (String × Level) := [.error, .warning, .note].map fun l => (l.text, l)

/-- An error by its kind and its text. -/
def errorJson (kind message : String) : Json :=
  .object [("error", .string kind), ("message", .string message)]

/-- The name of a kind of internal error. -/
def internalErrorKind : InternalError → String
  | .missingWellKnown _ => "MissingWellKnown"
  | .danglingModule _ => "DanglingModule"
  | .danglingType _ => "DanglingType"
  | .danglingMember _ => "DanglingMember"
  | .bodyConflict _ => "BodyConflict"

/-- Writes an internal error. -/
def internalErrorJson (e : InternalError) : Json := errorJson (internalErrorKind e) e.message

/-- Of a text that cannot be read only the category is told. -/
def readErrorJson (e : ReadError) : Json := errorJson "Json" e.category

/-- Writes an event of a trace. -/
def eventJson (e : TraceEvent) : Json :=
  .array [.string e.level.text, .string e.message,
    .strings (e.fields.map fun (name, value) => name ++ "=" ++ value)]

end MiddleEnd.Exchange
