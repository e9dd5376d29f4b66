/-
  Runs of passes over numbers of bounded width. An edit in which a number does not fit breaks the
  whole run off: the body at hand is lost, the methods behind it stay as they are, and the pass does
  not get to the end of the unit. Where every number fits, a checked run is a plain one.
-/
import MiddleEnd.Pass.Pipeline

namespace MiddleEnd

/-- A run of a pass that may break off; what it has done until then stays. -/
abbrev CheckedM (σ : Type) := ExceptT Overflow (PassM σ)

/-- An action that does not break off. -/
def CheckedM.ofPlain (action : PassM σ α) : CheckedM σ α := ExceptT.lift action

open CheckedM (ofPlain)

namespace BodyPass

variable {σ : Type} (pass : BodyPass σ)

/-- A body whose edit breaks off is not put back. -/
def editDetachedChecked (method : MemberRef) (body : Body) : CheckedM σ Unit := do
  let s ← get
  match (pass.editBody s.types method body s.state).breakOff with
  | some b =>
    ofPlain (PassM.emit b.told)
    throw b.cause
  | none => ofPlain (editDetached pass method body)

/-- Takes the body of a method out, edits it and puts it back. -/
def editMethodChecked (method : MemberRef) : CheckedM σ Unit := do
  let (body, types) ← ofPlain (PassM.ofExcept ((← get).types.detachBody method))
  ofPlain (PassM.modifyTypes fun _ => types)
  match body with
  | some body => editDetachedChecked pass method body
  | none => pure ()
  ofPlain (pass.finishMethod method)

/-- Edits the bodies of methods in their order, until one fails or an edit breaks off. -/
def editMethodsChecked : List MemberRef → CheckedM σ Unit
  | [] => return
  | method :: methods => do
    editMethodChecked pass method
    editMethodsChecked methods

/-- The methods of a unit, in turn. -/
def editUnitMethodsChecked (unit : CompilationUnit) : CheckedM σ Unit := do
  let methods ← ofPlain (PassM.ofExcept ((← get).types.unitMethods unit))
  ofPlain (PassM.emit [.editingBodies pass.name methods.length])
  editMethodsChecked pass methods

/-- Runs a pass over every method of a unit, unless it breaks off. -/
def editUnitChecked (unit : CompilationUnit) : CheckedM σ Unit := do
  ofPlain (PassM.modifyState (pass.beginUnit unit))
  match ← ofPlain (PassM.attempt (editUnitMethodsChecked pass unit).run) with
  | .ok (.error cause) => throw cause
  | .ok (.ok ()) => ofPlain (PassM.modifyState (pass.endUnit unit))
  | .error e =>
    ofPlain do
      PassM.modifyState (pass.endUnit unit)
      throw e

end BodyPass

namespace Pipeline

/-- Runs a pass on its part of the pipeline, if it is enabled and may run. -/
def runPassChecked (enabled : PipelineConfig → Bool) (errors : Sink) (unit : CompilationUnit)
    (pass : BodyPass σ) (part : Pipeline → σ) (put : σ → Pipeline → Pipeline) :
    CheckedM Pipeline (List String) := do
  if enabled (← get).state.config then
    if ← ofPlain (mayContinue errors) then
      ExceptT.mk (PassM.onPart part put (pass.editUnitChecked unit).run)
      return [pass.name]
    else return []
  else return []

/-- Runs the passes over a unit, unless one of them breaks off. -/
def runChecked (unit : CompilationUnit) (errors : Sink) : CheckedM Pipeline (List String) := do
  let first ← runPassChecked (·.instrumentGuards) errors unit
    (Guard.pass (← get).state.wellKnown) Pipeline.instrumented
    fun n p => { p with instrumented := n }
  let second ← runPassChecked (·.eliminateConditionals) errors unit
    Conditional.pass Pipeline.conditional fun c p => { p with conditional := c }
  let third ← runPassChecked (·.propagatePreconditions) errors unit
    Preconditions.pass Pipeline.preconditions fun c p => { p with preconditions := c }
  let ran := first ++ second ++ third
  let p := (← get).state
  ofPlain (PassM.emit
    [.pipelineFinished unit.name ran.length p.instrumented p.conditional.eliminated])
  return ran

end Pipeline

end MiddleEnd
