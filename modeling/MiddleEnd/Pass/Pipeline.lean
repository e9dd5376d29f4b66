/-
  The pipeline: guard instrumentation, conditional elimination and precondition propagation, in
  that order, over one unit at a time.
-/
import MiddleEnd.Diagnostic
import MiddleEnd.Json.Decode
import MiddleEnd.Pass.Conditional
import MiddleEnd.Pass.Guard
import MiddleEnd.Pass.Precondition

namespace MiddleEnd

/-- Which passes run, and whether recorded errors stop those that are left. -/
structure PipelineConfig where
  instrumentGuards : Bool := true
  eliminateConditionals : Bool := true
  propagatePreconditions : Bool := true
  stopOnError : Bool := true
  deriving DecidableEq, Repr

namespace PipelineConfig

/-- Reads a field of a configuration; unknown ones are skipped. -/
def readField (c : PipelineConfig) (key : String) (d : Draft) : Decoded PipelineConfig :=
  match key with
  | "instrument_guards" => do return { c with instrumentGuards := ← Decode.bool d }
  | "eliminate_conditionals" => do return { c with eliminateConditionals := ← Decode.bool d }
  | "propagate_preconditions" => do return { c with propagatePreconditions := ← Decode.bool d }
  | "stop_on_error" => do return { c with stopOnError := ← Decode.bool d }
  | _ => .ok c

/-- Absent fields keep their defaults. -/
def ofDraft (_ : Nat) (d : Draft) : Decoded PipelineConfig := Decode.record [] readField {} d

/-- Reads a configuration. -/
def read (text : String) : Decoded PipelineConfig := Decode.text ofDraft text

/-- Writes a configuration. -/
def toJson (c : PipelineConfig) : Json :=
  .object [
    ("instrument_guards", .bool c.instrumentGuards),
    ("eliminate_conditionals", .bool c.eliminateConditionals),
    ("propagate_preconditions", .bool c.propagatePreconditions),
    ("stop_on_error", .bool c.stopOnError)]

end PipelineConfig

/-- The passes with what they have counted and collected. -/
structure Pipeline where
  config : PipelineConfig
  wellKnown : WellKnown
  instrumented : Nat := 0
  conditional : Conditional.State := {}
  preconditions : PreconditionSet := {}

namespace Pipeline

/-- Whether the next pass may run. -/
def mayContinue (errors : Sink) : PassM Pipeline Bool := do
  if (← get).state.config.stopOnError && errors.hasErrors then
    PassM.emit [.passesSkipped errors.length]
    return false
  else return true

/-- Runs a pass if it is enabled and may run; tells its name if it ran. -/
def runPass (enabled : PipelineConfig → Bool) (errors : Sink) (name : String)
    (action : PassM Pipeline Unit) : PassM Pipeline (List String) := do
  if enabled (← get).state.config then
    if ← mayContinue errors then
      action
      return [name]
    else return []
  else return []

/-- Runs the pass that puts guards in. -/
def runGuard (unit : CompilationUnit) : PassM Pipeline Unit := do
  let pass := Guard.pass (← get).state.wellKnown
  PassM.onPart Pipeline.instrumented (fun n p => { p with instrumented := n }) (pass.editUnit unit)

/-- Runs the pass that removes conditional calls. -/
def runConditional (unit : CompilationUnit) : PassM Pipeline Unit :=
  PassM.onPart Pipeline.conditional (fun c p => { p with conditional := c })
    (Conditional.pass.editUnit unit)

/-- Runs the pass that collects preconditions. -/
def runPreconditions (unit : CompilationUnit) : PassM Pipeline Unit :=
  PassM.onPart Pipeline.preconditions (fun c p => { p with preconditions := c })
    (Preconditions.pass.editUnit unit)

/-- Runs the passes over a unit and gives the names of those that ran. -/
def run (unit : CompilationUnit) (errors : Sink) : PassM Pipeline (List String) := do
  let first ← runPass (·.instrumentGuards) errors "guard-instrumentation" (runGuard unit)
  let second ← runPass (·.eliminateConditionals) errors "conditional-elimination"
    (runConditional unit)
  let third ← runPass (·.propagatePreconditions) errors "precondition-propagation"
    (runPreconditions unit)
  let ran := first ++ second ++ third
  let p := (← get).state
  PassM.emit [.pipelineFinished unit.name ran.length p.instrumented p.conditional.eliminated]
  return ran

end Pipeline

end MiddleEnd
