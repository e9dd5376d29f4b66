/-
  What a run tells about itself: events with a level, a message and named values.
-/
import MiddleEnd.Universe.Fault
import MiddleEnd.Universe.Member
import MiddleEnd.Universe.Name

namespace MiddleEnd

/-- What happens on the way and is worth a line in a log. -/
inductive TraceEvent where
  | loweredUnit (module : String) (types errors : Nat)
  | loweredType (name : String) (members : Nat)
  | unknownShape (kind : String)
  | referencePresent (assembly : String)
  | referenceUnresolved (assembly : String) (error : ResolveError)
  | editingBodies (pass : String) (methods : Nat)
  | boundMember (member : MemberRef)
  | contractsInstalled (count : Nat)
  | guardedRead (field : MemberRef)
  | guardedWrite (field : MemberRef)
  | eliminatedCall (symbol : String) (callee : Expr)
  | unprovenPreconditions (method : String) (count : Nat)
  | unprovenPrecondition (method : String) (fact : Precondition)
  | attachedPreconditions (method : MemberRef) (count : Nat)
  | passesSkipped (errors : Nat)
  | pipelineFinished (unit : Option String) (passes instrumented eliminated : Nat)

/-- Events in their order. -/
abbrev Trace := List TraceEvent

/-- How much an event matters. -/
inductive TraceLevel where
  | trace
  | debug
  | warn
  deriving DecidableEq, Repr

/-- The word for a level. -/
def TraceLevel.text : TraceLevel → String
  | .trace => "trace"
  | .debug => "debug"
  | .warn => "warn"

namespace TraceEvent

/-- How much an event matters. -/
def level : TraceEvent → TraceLevel
  | .loweredUnit .. => .debug
  | .loweredType .. => .trace
  | .unknownShape _ => .trace
  | .referencePresent _ => .trace
  | .referenceUnresolved .. => .warn
  | .editingBodies .. => .debug
  | .boundMember _ => .trace
  | .contractsInstalled _ => .debug
  | .guardedRead _ => .trace
  | .guardedWrite _ => .trace
  | .eliminatedCall .. => .trace
  | .unprovenPreconditions .. => .warn
  | .unprovenPrecondition .. => .debug
  | .attachedPreconditions .. => .debug
  | .passesSkipped _ => .debug
  | .pipelineFinished .. => .debug

/-- The message of an event. -/
def message : TraceEvent → String
  | .loweredUnit .. => "translated compilation unit"
  | .loweredType .. => "translated type"
  | .unknownShape _ => "unrecognized code tree shape"
  | .referencePresent _ => "reference already present"
  | .referenceUnresolved .. => "could not resolve assembly reference"
  | .editingBodies .. => "rewriting method bodies"
  | .boundMember _ => "bound member"
  | .contractsInstalled _ => "guard contracts installed"
  | .guardedRead _ => "guarded field read"
  | .guardedWrite _ => "guarded field write"
  | .eliminatedCall .. => "eliminated conditional call"
  | .unprovenPreconditions .. => "visible method relies on unproven preconditions"
  | .unprovenPrecondition .. => "unproven precondition"
  | .attachedPreconditions .. => "attaching implicit preconditions"
  | .passesSkipped _ => "errors recorded, skipping remaining passes"
  | .pipelineFinished .. => "pipeline finished"

/-- The name of a unit, spelled out. -/
def unitName : Option String → String
  | none => "None"
  | some name => "Some(" ++ identifierText name ++ ")"

/-- The named values, in order. -/
def fields : TraceEvent → List (String × String)
  | .loweredUnit module types errors =>
    [("module", module), ("types", toString types), ("errors", toString errors)]
  | .loweredType name members => [("ty", name), ("members", toString members)]
  | .unknownShape kind => [("kind", kind)]
  | .referencePresent assembly => [("assembly", assembly)]
  | .referenceUnresolved assembly error => [("assembly", assembly), ("error", error.message)]
  | .editingBodies pass methods => [("pass", pass), ("methods", toString methods)]
  | .boundMember member => [("member", member.text)]
  | .contractsInstalled count => [("installed", toString count)]
  | .guardedRead field => [("field", field.text)]
  | .guardedWrite field => [("field", field.text)]
  | .eliminatedCall symbol callee => [("symbol", symbol), ("callee", callee.text)]
  | .unprovenPreconditions method count => [("method", method), ("count", toString count)]
  | .unprovenPrecondition method fact => [("method", method), ("precondition", fact.text)]
  | .attachedPreconditions method count => [("method", method.text), ("count", toString count)]
  | .passesSkipped errors => [("errors", toString errors)]
  | .pipelineFinished unit passes instrumented eliminated =>
    [("unit", unitName unit), ("passes", toString passes), ("instrumented", toString instrumented),
     ("eliminated", toString eliminated)]

end TraceEvent

/-- How a run breaks off: the events told until then, and the reason. -/
structure BreakOff where
  told : Trace
  cause : Overflow

/-- The first event at which `step` does not fit breaks a run off. -/
def Trace.breakOff? (step : σ → TraceEvent → Except Overflow σ) (state : σ) :
    Trace → Option BreakOff
  | [] => none
  | event :: events =>
    match step state event with
    | .error cause => some { told := [], cause }
    | .ok state =>
      (breakOff? step state events).map fun b => { b with told := event :: b.told }

end MiddleEnd
