/-
  One step of guard instrumentation. `readGroup` and `writeGroup` are the statements that take the
  place of a guarded access, as functions of the temporaries that the step takes. A member and an
  assignment whose parts are edited become either such a group or the node they were
  (`editMember_yields`, `editAssignment_yields`); later modules use these two laws only.
-/
import MiddleEnd.Pass.Guard
import MiddleEnd.Proofs.Code.Editing

namespace MiddleEnd.Guard

/-- The facts on a member; none if it is no field or cannot be looked up. -/
def facts? (u : Universe) (ref : MemberRef) : Option FieldFacts :=
  match lookupField u ref with
  | .ok facts => facts
  | .error _ => none

/-- The getter of the guard that a read of the member has to pass. -/
def readGetter? (u : Universe) (ref : MemberRef) : Option MemberRef :=
  (facts? u ref).bind (·.readGuard)

/-- The getter of the guard that a write to the member has to pass. -/
def writeGetter? (u : Universe) (ref : MemberRef) : Option MemberRef :=
  (facts? u ref).bind (·.writeGuard)

theorem facts?_of_field {u : Universe} {ref : MemberRef} {member : Member} {field : Field}
    {owner : TypeNode} (hm : u.member ref = .ok member) (hf : member.field? = some field)
    (ho : u.type member.declaringType = .ok owner) :
    facts? u ref = some {
      type := field.type
      isStatic := field.flags.isStatic
      declaringType := member.declaringType
      inValueType := owner.isValueType
      getter := owner.contract.bind (·.getter)
      isFrameField := owner.contract.bind (·.field) == some ref } := by
  simp only [facts?, lookupField, bind, Except.bind, hm, hf, ho]
  rfl

/-- Only fields of known types have facts. -/
theorem field_of_facts? {u : Universe} {ref : MemberRef} {facts : FieldFacts}
    (h : facts? u ref = some facts) :
    ∃ member field owner, u.member ref = .ok member ∧ member.field? = some field ∧
      u.type member.declaringType = .ok owner := by
  unfold facts? lookupField at h
  rcases hm : u.member ref with e | member
  · simp [hm, bind, Except.bind] at h
  · rcases hf : member.field? with _ | field
    · simp [hm, hf, bind, Except.bind, pure, Except.pure] at h
    · rcases ho : u.type member.declaringType with e | owner
      · simp [hm, hf, ho, bind, Except.bind] at h
      · exact ⟨member, field, owner, rfl, hf, ho⟩

theorem readGuard_of_writeGuard {facts : FieldFacts} {getter : MemberRef}
    (h : facts.writeGuard = some getter) : facts.readGuard = some getter := by
  unfold FieldFacts.writeGuard at h
  split at h
  · cases h
  · exact h

/-- The getter of a guard comes from a contract. -/
theorem contract_of_readGuard {u : Universe} {ref getter : MemberRef} {facts : FieldFacts}
    (hf : facts? u ref = some facts) (hg : facts.readGuard = some getter) :
    ∃ id owner contract, u.type id = .ok owner ∧ owner.contract = some contract ∧
      contract.getter = some getter := by
  obtain ⟨member, field, owner, hm, hfield, ho⟩ := field_of_facts? hf
  rw [facts?_of_field hm hfield ho, Option.some_inj] at hf
  rw [← hf, FieldFacts.readGuard] at hg
  split at hg
  · cases hg
  · obtain ⟨contract, hc, hgetter⟩ := Option.bind_eq_some_iff.mp hg
    exact ⟨_, owner, contract, ho, hc, hgetter⟩

/-- A temporary with the static type of the value that it holds. -/
def tempFor (id : LocalId) (value : Expr) (fallback : TypeRef) : Expr :=
  { form := .temporary id, type := some (value.type.getD fallback) }

/-- `{ temp = receiver; temp.getter().CheckIsReading(); temp.ref }` in place of `e`. -/
def readGroup (w : WellKnown) (id : LocalId) (e receiver : Expr) (ref : MemberRef)
    (facts : FieldFacts) (getter : MemberRef) : Expr :=
  let temp := tempFor id receiver (.bound facts.declaringType)
  { e with form := .block { statements := [
      .assignment temp receiver,
      checkStmt temp getter w.checkIsReading,
      .expression { form := .member (some temp) ref, type := some (e.type.getD facts.type) }] } }

/-- `{ temp = receiver; held = value; temp.getter().CheckIsWriting(); temp.ref = held }` -/
def writeGroup (w : WellKnown) (id valueId : LocalId) (target receiver value : Expr)
    (source : Option SourceContext) (ref : MemberRef) (facts : FieldFacts) (getter : MemberRef) :
    Stmt :=
  let temp := tempFor id receiver (.bound facts.declaringType)
  let held := tempFor valueId value facts.type
  { form := .block { statements := [
      .assignment temp receiver,
      .assignment held value,
      checkStmt temp getter w.checkIsWriting,
      .assignment { target with
        form := .member (some temp) ref, type := some (target.type.getD facts.type) } held] }
    source }

namespace State

/-- Keeps the failure of looking up a member. -/
def noting (s : State) (u : Universe) (ref : MemberRef) : State :=
  match lookupField u ref with
  | .ok _ => s
  | .error e => { s with failure := s.failure.or (some e) }

/-- A read takes one temporary. -/
def afterRead (s : State) (ref : MemberRef) : State :=
  { s with
    tempCount := s.tempCount + 1
    instrumented := s.instrumented + 1
    trace := s.trace ++ [.guardedRead ref] }

/-- A write takes two temporaries. -/
def afterWrite (s : State) (ref : MemberRef) : State :=
  { s with
    tempCount := s.tempCount + 2
    instrumented := s.instrumented + 1
    trace := s.trace ++ [.guardedWrite ref] }

end State

@[simp]
theorem State.tempCount_noting (s : State) (u : Universe) (ref : MemberRef) :
    (s.noting u ref).tempCount = s.tempCount := by
  unfold State.noting
  split <;> rfl

theorem fieldFacts_run (u : Universe) (ref : MemberRef) (s : State) :
    Edit.always (fieldFacts u ref) s = (some (facts? u ref), s.noting u ref) := by
  unfold fieldFacts facts? State.noting
  cases lookupField u ref <;> rfl

/-! ## The two overrides -/

/-- A member becomes a guarded read if it is a guarded field and has a receiver; otherwise it
    keeps its edited receiver. -/
theorem editMember_yields {u : Universe} {w : WellKnown} {e : Expr} {ref : MemberRef}
    {edit : Edit State (Option Expr)} {parts : State → Option Expr → State → Prop}
    {post : State → Expr → State → Prop} (h : edit.Yields parts)
    (plain : ∀ s receiver s', parts (s.noting u ref) receiver s' →
      readGetter? u ref = none ∨ receiver = none →
      post s { e with form := .member receiver ref } s')
    (guarded : ∀ s receiver s' facts getter, parts (s.noting u ref) (some receiver) s' →
      facts? u ref = some facts → facts.readGuard = some getter →
      post s (readGroup w ⟨s'.tempCount⟩ e receiver ref facts getter) (s'.afterRead ref)) :
    (editMember u w e ref edit).Yields post := by
  intro s
  obtain ⟨receiver, s', hr, pr⟩ := h (s.noting u ref)
  unfold editMember
  rw [Edit.bind_run (fieldFacts_run u ref s), Edit.bind_run hr]
  rcases hf : facts? u ref with _ | facts
  · exact ⟨_, s', rfl, plain s receiver s' pr (Or.inl (by rw [readGetter?, hf]; rfl))⟩
  · rw [Option.bind_some]
    rcases hg : facts.readGuard with _ | getter
    · exact ⟨_, s', rfl, plain s receiver s' pr (Or.inl (by rw [readGetter?, hf]; exact hg))⟩
    · rcases receiver with _ | receiver
      · exact ⟨_, s', rfl, plain s none s' pr (Or.inr rfl)⟩
      · exact ⟨_, _, rfl, guarded s receiver s' facts getter pr hf hg⟩

/-- An assignment to a member becomes a guarded write if the member is a guarded field of a
    reference type and has a receiver. A field that is not guarded keeps its edited receiver, and
    the target that is no field is walked through like any expression. -/
theorem editAssignment_yields {u : Universe} {w : WellKnown} {receiver : Option Expr}
    {ref : MemberRef} {type : Option TypeRef} {targetSource source : Option SourceContext}
    {value : Expr} {editTarget editValue : Edit State Expr}
    {editReceiver : Edit State (Option Expr)}
    {targets values : State → Expr → State → Prop} {receivers : State → Option Expr → State → Prop}
    {post : State → Stmt → State → Prop} (ht : editTarget.Yields targets)
    (hv : editValue.Yields values) (hr : editReceiver.Yields receivers)
    (noField : ∀ s t s₁ v s', facts? u ref = none → targets (s.noting u ref) t s₁ →
      values s₁ v s' → post s ⟨.assignment t v, source⟩ s')
    (plain : ∀ s r s₁ v s', receivers (s.noting u ref) r s₁ → values s₁ v s' →
      (facts? u ref).isSome → writeGetter? u ref = none ∨ r = none →
      post s ⟨.assignment ⟨.member r ref, type, targetSource⟩ v, source⟩ s')
    (guarded : ∀ s r s₁ v s' facts getter, receivers (s.noting u ref) (some r) s₁ →
      values s₁ v s' → facts? u ref = some facts → facts.writeGuard = some getter →
      post s (writeGroup w ⟨s'.tempCount⟩ ⟨s'.tempCount + 1⟩
        ⟨.member receiver ref, type, targetSource⟩ r v source ref facts getter)
        (s'.afterWrite ref)) :
    (editAssignment u w ⟨⟨.member receiver ref, type, targetSource⟩, value, source, editTarget,
      editValue, editReceiver⟩).Yields post := by
  intro s
  rcases hf : facts? u ref with _ | facts
  · obtain ⟨t, s₁, et, pt⟩ := ht (s.noting u ref)
    obtain ⟨v, s', ev, pv⟩ := hv s₁
    refine ⟨_, s', ?_, noField s t s₁ v s' hf pt pv⟩
    show (Edit.always (fieldFacts u ref) >>= _) s = _
    rw [Edit.bind_run (fieldFacts_run u ref s), hf]
    show AssignmentParts.walk _ _ = _
    rw [AssignmentParts.walk, Edit.bind_run et, Edit.bind_run ev]
    rfl
  · obtain ⟨r, s₁, er, pr⟩ := hr (s.noting u ref)
    obtain ⟨v, s', ev, pv⟩ := hv s₁
    show ∃ st s'', (Edit.always (fieldFacts u ref) >>= _) s = (some st, s'') ∧ _
    rw [Edit.bind_run (fieldFacts_run u ref s), hf]
    show ∃ st s'', (editReceiver >>= _) _ = (some st, s'') ∧ _
    rw [Edit.bind_run er, Edit.bind_run ev]
    rcases r with _ | r
    · exact ⟨_, s', rfl, plain s none s₁ v s' pr pv (by rw [hf]; rfl) (Or.inr rfl)⟩
    · rcases hg : facts.writeGuard with _ | getter
      · refine ⟨_, s', rfl, plain s (some r) s₁ v s' pr pv (by rw [hf]; rfl) (Or.inl ?_)⟩
        rw [writeGetter?, hf]
        exact hg
      · exact ⟨_, _, rfl, guarded s r s₁ v s' facts getter pr pv hf hg⟩

/-- The assignment to anything else is walked through. -/
theorem editAssignment_walk {u : Universe} {w : WellKnown} {p : AssignmentParts State}
    (h : ∀ receiver ref, p.target.form ≠ .member receiver ref) :
    editAssignment u w p = p.walk := by
  unfold editAssignment
  split
  · rename_i receiver ref hm
    exact absurd hm (h receiver ref)
  · rfl

end MiddleEnd.Guard
