/-
  Diagnostics: what went wrong, where, and how it is shown. A sink keeps them in the order in
  which they were reported.
-/
import MiddleEnd.Source.Document
import MiddleEnd.Text.Escape

namespace MiddleEnd

/-- Only errors count against a run. -/
inductive Level where
  | error
  | warning
  | note
  deriving DecidableEq, Repr

/-- The word for a level. -/
def Level.text : Level → String
  | .error => "error"
  | .warning => "warning"
  | .note => "note"

/-- The kinds of errors that are reported. -/
inductive ErrorKind where
  /-- A code tree node of unknown shape. -/
  | structural
  /-- An assembly reference that could not be resolved. -/
  | reference
  deriving DecidableEq, Repr

/-- A code that stands for a kind of error. -/
structure ErrorCode where
  category : Char
  number : UInt16
  deriving DecidableEq, Repr

/-- The number has at least three digits. -/
def ErrorCode.text (c : ErrorCode) : String :=
  let digits := Nat.toDigits 10 c.number.toNat
  String.ofList ('E' :: c.category :: List.replicate (3 - digits.length) '0' ++ digits)

/-- The code of a kind of error. -/
def ErrorKind.code : ErrorKind → ErrorCode
  | .structural => ⟨'T', 1⟩
  | .reference => ⟨'R', 1⟩

/-- The message of a kind of error about something. -/
def ErrorKind.message (argument : String) : ErrorKind → String
  | .structural => "did not expect a node of kind `" ++ argument ++ "`"
  | .reference => "could not resolve assembly reference `" ++ argument ++ "`"

/-- Something that is reported to the user. -/
structure Diagnostic where
  level : Level
  kind : ErrorKind
  /-- The offending node kind or assembly name. -/
  argument : String
  source : Option SourceContext := none
  notes : List String := []
  deriving DecidableEq, Repr

namespace Diagnostic

/-- The code that is shown. -/
def code (d : Diagnostic) : ErrorCode := d.kind.code

/-- The message that is shown. -/
def message (d : Diagnostic) : String := d.kind.message d.argument

/-- A diagnostic in one line, without its place. -/
def text (d : Diagnostic) : String :=
  d.level.text ++ "[" ++ d.code.text ++ "]: " ++ d.message

end Diagnostic

/-- The marks put around the parts of a rendered diagnostic. -/
structure Palette where
  level : Level → String
  bold : String
  frame : String
  reset : String

namespace Palette

/-- No colours. -/
def plain : Palette := ⟨fun _ => "", "", "", ""⟩

/-- The colours of a terminal. -/
def terminal : Palette where
  level
    | .error => "\x1b[1;31m"
    | .warning => "\x1b[1;33m"
    | .note => "\x1b[1;36m"
  bold := "\x1b[1m"
  frame := "\x1b[1;34m"
  reset := "\x1b[0m"

end Palette

namespace Diagnostic

/-- A number of blanks. -/
def spaces (n : Nat) : String := String.ofList (List.replicate n ' ')

/-- How many carets underline a region that starts in `line`: its characters if it ends there,
    otherwise the rest of the line in bytes. At least one. -/
def caretCount (line : String) (start stop : Position) : Nat :=
  if start.line = stop.line then max (stop.column - start.column) 1
  else max (line.utf8ByteSize - (start.column - 1)) 1

/-- What stands under the source line: blanks up to the start, then the carets. -/
def underline (line : String) (start stop : Position) : String × String :=
  (spaces (start.column - 1),
   String.ofList (List.replicate (caretCount line start stop) '^'))

/-- The line with the code and the message. -/
def header (p : Palette) (d : Diagnostic) : String :=
  p.level d.level ++ d.level.text ++ "[" ++ d.code.text ++ "]" ++ p.reset
    ++ p.bold ++ ": " ++ d.message ++ p.reset ++ "\n"

/-- The source line between two margins, and the underline below it. -/
def excerpt (p : Palette) (level : Level) (line : String) (start stop : Position) : String :=
  let number := toString start.line
  let margin := " " ++ spaces number.length ++ " " ++ p.frame ++ "|" ++ p.reset
  let (blanks, carets) := underline line start stop
  margin ++ "\n"
    ++ " " ++ p.frame ++ number ++ p.reset ++ " |" ++ p.reset ++ " " ++ line ++ "\n"
    ++ margin ++ " " ++ blanks ++ p.level level ++ carets ++ p.reset ++ "\n"

/-- The lines that show where a diagnostic is about. -/
def place (p : Palette) (level : Level) (source : SourceContext) : Except Overflow String := do
  let start ← source.start
  let stop ← source.stop
  let arrow := " " ++ p.frame ++ "-->" ++ p.reset ++ " " ++ source.document.displayName ++ ":"
    ++ toString start.line ++ ":" ++ toString start.column ++ "\n"
  match source.document.line? start.line with
  | some line => return arrow ++ excerpt p level line start stop
  | none => return arrow

/-- The line of a note. -/
def noteLine (p : Palette) (note : String) : String :=
  "   = " ++ p.bold ++ "note" ++ p.reset ++ ": " ++ note ++ "\n"

/-- The diagnostic as it is shown. -/
def render (p : Palette) (d : Diagnostic) : Except Overflow String := do
  let where' ← match d.source with
    | some source => place p d.level source
    | none => pure ""
  return header p d ++ where' ++ String.join (d.notes.map (noteLine p))

end Diagnostic

/-- Diagnostics in the order of their reports. -/
abbrev Sink := List Diagnostic

namespace Sink

/-- Adds an error. -/
def report (sink : Sink) (kind : ErrorKind) (argument : String) (source : Option SourceContext) :
    Sink :=
  sink ++ [{ level := .error, kind, argument, source }]

/-- An error has been reported. -/
def hasErrors (sink : Sink) : Bool := sink.any fun d => d.level == .error

/-- How many diagnostics of a kind have been reported. -/
def count (sink : Sink) (kind : ErrorKind) : Nat := sink.countP fun d => d.kind == kind

/-- All diagnostics as they are shown, with an empty line between them. -/
def render (p : Palette) (sink : Sink) : Except Overflow String := do
  return Text.join "\n" (← sink.mapM (Diagnostic.render p))

end Sink

end MiddleEnd
