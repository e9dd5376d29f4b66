/-
  Passes over method bodies. A pass gets every body of a unit in turn, taken out of the universe,
  and gives back what becomes of it; the result goes back into the universe even if the pass fails.
-/
import MiddleEnd.Trace
import MiddleEnd.Universe.Basic

namespace MiddleEnd

/-- The universe that a pass works on, and the state of the pass. -/
structure PassState (σ : Type) where
  state : σ
  types : Universe
  trace : Trace := []

/-- A run of a pass; what it has done before it fails stays. -/
abbrev PassM (σ : Type) := ExceptT InternalError (StateM (PassState σ))

namespace PassM

variable {σ τ α : Type}

/-- Adds events to the trace. -/
def emit (events : Trace) : PassM σ Unit := modify fun s => { s with trace := s.trace ++ events }

/-- Changes the state of the pass. -/
def modifyState (f : σ → σ) : PassM σ Unit := modify fun s => { s with state := f s.state }

/-- Changes the types. -/
def modifyTypes (f : Universe → Universe) : PassM σ Unit :=
  modify fun s => { s with types := f s.types }

/-- Goes on with a result, or fails. -/
def ofExcept (result : Except InternalError α) : PassM σ α := ExceptT.mk (pure result)

/-- Fails if there is a reason to. -/
def failWith : Option InternalError → PassM σ Unit
  | some error => throw error
  | none => return

/-- Runs an action to its end and hands out how it went. -/
def attempt (action : PassM σ α) : PassM σ (Except InternalError α) := ExceptT.lift action.run

/-- Runs an action on a part of the state. -/
def onPart (part : τ → σ) (put : σ → τ → τ) (action : PassM σ α) : PassM τ α :=
  ExceptT.mk fun s =>
    let (result, inner) := action.run { s with state := part s.state }
    (result, { inner with state := put inner.state s.state })

end PassM

/-- What becomes of a body. -/
structure EditedBody (σ : Type) where
  body : Body
  state : σ
  trace : Trace := []
  failure : Option InternalError := none
  /-- Set if a number met on the way does not fit its width. -/
  breakOff : Option BreakOff := none

/-- A pass that edits the bodies of a unit one after the other, with a state of its own. -/
structure BodyPass (σ : Type) where
  name : String
  /-- Before the first body of a unit. -/
  beginUnit : CompilationUnit → σ → σ := fun _ s => s
  /-- Behind the last body of a unit, also if the unit failed. -/
  endUnit : CompilationUnit → σ → σ := fun _ s => s
  editBody : Universe → MemberRef → Body → σ → EditedBody σ
  /-- Once the body of a method is back in the universe, or if it has none. -/
  finishMethod : MemberRef → PassM σ Unit := fun _ => return

namespace BodyPass

variable {σ : Type} (pass : BodyPass σ)

/-- Edits a body that is out of the universe and puts the result back. -/
def editDetached (method : MemberRef) (body : Body) : PassM σ Unit := do
  let s ← get
  let edited := pass.editBody s.types method body s.state
  PassM.modifyState fun _ => edited.state
  PassM.emit edited.trace
  let types ← PassM.ofExcept ((← get).types.attachBody method edited.body)
  PassM.modifyTypes fun _ => types
  PassM.failWith edited.failure

/-- Takes the body of a method out, edits it and puts it back. -/
def editMethod (method : MemberRef) : PassM σ Unit := do
  let (body, types) ← PassM.ofExcept ((← get).types.detachBody method)
  PassM.modifyTypes fun _ => types
  match body with
  | some body => editDetached pass method body
  | none => pure ()
  pass.finishMethod method

/-- Edits the bodies of methods in their order, until one fails. -/
def editMethods : List MemberRef → PassM σ Unit
  | [] => return
  | method :: methods => do
    editMethod pass method
    editMethods methods

/-- Runs a pass over every method of a unit, types nested in its types included. -/
def editUnit (unit : CompilationUnit) : PassM σ Unit := do
  PassM.modifyState (pass.beginUnit unit)
  let result ← PassM.attempt do
    let methods ← PassM.ofExcept ((← get).types.unitMethods unit)
    PassM.emit [.editingBodies pass.name methods.length]
    editMethods pass methods
  PassM.modifyState (pass.endUnit unit)
  PassM.ofExcept result

end BodyPass

end MiddleEnd
