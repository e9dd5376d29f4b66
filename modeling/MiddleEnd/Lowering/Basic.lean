/-
  The state of a lowering and what it asks of its host: references for assembly names, and
  documents for pieces of source text.
-/
import MiddleEnd.CodeTree.Basic
import MiddleEnd.Diagnostic
import MiddleEnd.Trace
import MiddleEnd.Universe.Module

namespace MiddleEnd

/-- What surrounds a lowering; both answers may depend on what was asked before. -/
structure Host (σ : Type) where
  /-- The assembly of that name, given the keys that are already referenced. -/
  resolve : String → List String → StateM σ (Except ResolveError AssemblyReference)
  /-- A document from a file name, a first line and a text. -/
  document : Option String → UInt32 → String → StateM σ Document

/-- What lowering works on: the module that is filled, errors and events so far, and the host. -/
structure LoweringState (σ : Type) where
  module : Module
  errors : Sink
  trace : Trace
  host : σ

/-- A step of lowering. -/
abbrev Lower (σ : Type) := StateM (LoweringState σ)

namespace Lower

variable {σ : Type}

/-- Adds an event to the trace. -/
def emit (event : TraceEvent) : Lower σ Unit :=
  modify fun s => { s with trace := s.trace ++ [event] }

/-- Runs an action of the host. -/
def ask (action : StateM σ α) : Lower σ α :=
  fun s => let (a, host) := action s.host; (a, { s with host })

/-- Changes the module. -/
def modifyModule (f : Module → Module) : Lower σ Unit :=
  modify fun s => { s with module := f s.module }

/-- Enters a type into the module. -/
def addType (node : TypeNode) : Lower σ TypeId :=
  fun s => let (module, id) := s.module.addType node; (id, { s with module })

/-- Reports a node of unknown shape. -/
def unexpected (kind : String) (source : Option SourceContext) : Lower σ Unit := do
  emit (.unknownShape kind)
  modify fun s => { s with errors := s.errors.report .structural kind source }

/-- A document for a snippet, placed by its pragma. -/
def snippetDocument (host : Host σ) (pragma : Option CodeTree.LinePragma) (text : String) :
    Lower σ Document :=
  match pragma with
  | some pragma => ask (host.document (some pragma.fileName) pragma.lineNumber text)
  | none => ask (host.document none 1 text)

end Lower

end MiddleEnd
