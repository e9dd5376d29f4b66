/-
  Guard instrumentation. Reads and writes of instance fields go through the guard of the object:

    o.f        becomes  { t1 = o; t1.getter().CheckIsReading(); t1.f }
    o.f = v    becomes  { t1 = o; t2 = v; t1.getter().CheckIsWriting(); t1.f = t2 }

  Receiver and value are each evaluated once, in their order. Static fields, the field that holds
  the guard and types without a getter stay as they are, as do writes into value types.
-/
import MiddleEnd.Code.Editor
import MiddleEnd.Pass.Basic
import MiddleEnd.Pass.WellKnown

namespace MiddleEnd.Guard

/-- What an access needs to know of a field. -/
structure FieldFacts where
  type : TypeRef
  isStatic : Bool
  declaringType : TypeId
  inValueType : Bool
  getter : Option MemberRef
  isFrameField : Bool

namespace FieldFacts

/-- The getter of the guard that a read has to pass. -/
def readGuard (f : FieldFacts) : Option MemberRef :=
  if f.isStatic || f.isFrameField then none else f.getter

/-- The getter of the guard that a write has to pass. -/
def writeGuard (f : FieldFacts) : Option MemberRef :=
  if f.inValueType then none else f.readGuard

end FieldFacts

/-- The facts on a member, if it is a field. -/
def lookupField (u : Universe) (ref : MemberRef) : Except InternalError (Option FieldFacts) := do
  let member ← u.member ref
  match member.field? with
  | none => return none
  | some field =>
    let owner ← u.type member.declaringType
    return some {
      type := field.type
      isStatic := field.flags.isStatic
      declaringType := member.declaringType
      inValueType := owner.isValueType
      getter := owner.contract.bind (·.getter)
      isFrameField := owner.contract.bind (·.field) == some ref }

/-- The state of an instrumentation of one body; only the first failure is kept. -/
structure State where
  tempCount : Nat
  instrumented : Nat := 0
  trace : Trace := []
  failure : Option InternalError := none

/-- A member that cannot be looked up counts as no field. -/
def fieldFacts (u : Universe) (ref : MemberRef) : StateM State (Option FieldFacts) := do
  match lookupField u ref with
  | .ok facts => return facts
  | .error e =>
    modify fun s => { s with failure := s.failure.or (some e) }
    return none

/-- Counts an instrumented access. -/
def count (event : TraceEvent) : StateM State Unit :=
  modify fun s => { s with instrumented := s.instrumented + 1, trace := s.trace ++ [event] }

/-- Hands out a fresh temporary. -/
def newTemp : StateM State LocalId :=
  fun s => (⟨s.tempCount⟩, { s with tempCount := s.tempCount + 1 })

/-- The assignment of a value to a fresh temporary, and the temporary. -/
def spill (value : Expr) (fallback : TypeRef) : StateM State (Stmt × Expr) := do
  let temp : Expr := { form := .temporary (← newTemp), type := some (value.type.getD fallback) }
  return (.assignment temp value, temp)

/-- `temp.getter().check()` -/
def checkStmt (temp : Expr) (getter check : MemberRef) : Stmt :=
  let guard := (ExprForm.call (ExprForm.member (some temp) getter).expr []).expr
  .expression (ExprForm.call (ExprForm.member (some guard) check).expr []).expr

/-- A guarded read in place of the expression `e`, which reads `member` of `receiver`. -/
def guardedRead (w : WellKnown) (e receiver : Expr) (member : MemberRef) (facts : FieldFacts)
    (getter : MemberRef) : StateM State Expr := do
  let (store, temp) ← spill receiver (.bound facts.declaringType)
  let read : Expr := {
    form := .member (some temp) member, type := some (e.type.getD facts.type) }
  count (.guardedRead member)
  return { e with form := .block { statements :=
    [store, checkStmt temp getter w.checkIsReading, .expression read] } }

/-- A guarded write in place of an assignment to `target`, which is `member` of `receiver`. -/
def guardedWrite (w : WellKnown) (target receiver value : Expr) (source : Option SourceContext)
    (member : MemberRef) (facts : FieldFacts) (getter : MemberRef) : StateM State Stmt := do
  let (storeReceiver, temp) ← spill receiver (.bound facts.declaringType)
  let (storeValue, valueTemp) ← spill value facts.type
  let place : Expr := { target with
    form := .member (some temp) member, type := some (target.type.getD facts.type) }
  count (.guardedWrite member)
  return { form := .block { statements :=
    [storeReceiver, storeValue, checkStmt temp getter w.checkIsWriting,
     .assignment place valueTemp] }, source }

/-- A member is read; what is no field just keeps its edited receiver. -/
def editMember (u : Universe) (w : WellKnown) (e : Expr) (member : MemberRef)
    (editReceiver : Edit State (Option Expr)) : Edit State Expr := do
  let facts ← Edit.always (fieldFacts u member)
  let receiver ← editReceiver
  match facts, facts.bind (·.readGuard), receiver with
  | some facts, some getter, some receiver =>
    Edit.always (guardedRead w e receiver member facts getter)
  | _, _, receiver => return { e with form := .member receiver member }

/-- The target of an assignment is not read, only its receiver is. -/
def editAssignment (u : Universe) (w : WellKnown) (parts : AssignmentParts State) :
    Edit State Stmt := do
  match parts.target.form with
  | .member _ member =>
    match ← Edit.always (fieldFacts u member) with
    | none => parts.walk
    | some facts =>
      let receiver ← parts.editReceiver
      let value ← parts.editValue
      match receiver, facts.writeGuard with
      | some receiver, some getter =>
        Edit.always (guardedWrite w parts.target receiver value parts.source member facts getter)
      | receiver, _ =>
        let target := { parts.target with form := .member receiver member }
        return { form := .assignment target value, source := parts.source }
  | _ => parts.walk

/-- Puts guards around reads of members and in front of assignments to them. -/
def editor (u : Universe) (w : WellKnown) : Editor State where
  member := fun e _ member editReceiver => editMember u w e member editReceiver
  assignment := editAssignment u w

/-- Temporaries are numbered with 32 bits; a read takes one and a write two. -/
def takeTemps (tempCount : Nat) : TraceEvent → Except Overflow Nat
  | .guardedRead _ => sumBelow UInt32.size tempCount 1
  | .guardedWrite _ => sumBelow UInt32.size tempCount 2
  | _ => .ok tempCount

/-- Instruments a body; `instrumented` counts the accesses so far. -/
def editBody (w : WellKnown) (u : Universe) (_ : MemberRef) (body : Body) (instrumented : Nat) :
    EditedBody Nat :=
  let (block, s) := (editor u w).editBlock body.block { tempCount := body.tempCount }
  { body := { block, tempCount := s.tempCount }
    state := if s.failure.isSome then instrumented else instrumented + s.instrumented
    trace := s.trace
    failure := s.failure
    breakOff := s.trace.breakOff? takeTemps body.tempCount }

/-- The state counts the accesses that were instrumented. -/
def pass (w : WellKnown) : BodyPass Nat where
  name := "guard-instrumentation"
  editBody := editBody w

end MiddleEnd.Guard
