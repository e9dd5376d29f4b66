/-
  Guard instrumentation in closed universes. Every lookup finds its field, so nothing fails; the
  statements that are put in name the field, the getter of its contract and the two checks.
-/
import MiddleEnd.Proofs.Code.Names
import MiddleEnd.Proofs.Guard.Step
import MiddleEnd.Proofs.Pass.Run

namespace MiddleEnd

theorem Expr.namesOnly_type {p : MemberRef → Prop} {e : Expr} (h : NamesOnly p (e.exprs true)) :
    NamesOnly p (typeExprs true e.type) := by
  obtain ⟨form, type, source⟩ := e
  exact (namesOnly_expr.mp h).2.2

theorem namesOnly_getD {p : MemberRef → Prop} {type : Option TypeRef} {fallback : TypeRef}
    (h : NamesOnly p (typeExprs true type)) (hf : NamesOnly p (fallback.exprs true)) :
    NamesOnly p ((type.getD fallback).exprs true) := by
  cases type with
  | none => exact hf
  | some type => exact h

namespace Guard

/-! ## Facts -/

section

variable {u : Universe} {ref : MemberRef}

/-- A member of a closed universe can be looked up. -/
theorem lookupField_ok (h : u.Closed) (hr : u.Has ref) :
    ∃ facts, lookupField u ref = .ok facts := by
  obtain ⟨member, hm⟩ := hr
  unfold lookupField
  rw [hm]
  rcases hf : member.field? with _ | field
  · exact ⟨none, by simp [bind, Except.bind, hf, pure, Except.pure]⟩
  · obtain ⟨owner, ho⟩ := h.owner hm
    rw [← Universe.type_eq_ok] at ho
    exact ⟨some _, by simp only [bind, Except.bind, hf, ho]; rfl⟩

theorem State.noting_of_has (h : u.Closed) (hr : u.Has ref) (s : State) : s.noting u ref = s := by
  obtain ⟨facts, hf⟩ := lookupField_ok h hr
  rw [State.noting, hf]

theorem type_names (h : u.Closed) {facts : FieldFacts} (hf : facts? u ref = some facts) :
    NamesOnly u.Has (facts.type.exprs true) := by
  obtain ⟨member, field, owner, hm, hfield, ho⟩ := field_of_facts? hf
  rw [facts?_of_field hm hfield ho] at hf
  obtain rfl := Option.some.inj hf
  exact h.fieldType hm hfield

theorem has_of_readGuard (h : u.Closed) {facts : FieldFacts} {getter : MemberRef}
    (hf : facts? u ref = some facts) (hg : facts.readGuard = some getter) : u.Has getter := by
  obtain ⟨id, owner, contract, ho, hc, hgetter⟩ := contract_of_readGuard hf hg
  exact h.contracts (Universe.type_eq_ok.mp ho) hc (Or.inl hgetter)

end

/-! ## Groups -/

section

variable {p : MemberRef → Prop} {w : WellKnown} {id valueId : LocalId} {e receiver value : Expr}
  {source : Option SourceContext} {ref getter : MemberRef} {facts : FieldFacts}

theorem tempFor_names {fallback : TypeRef} (h : NamesOnly p (value.exprs true))
    (hf : NamesOnly p (fallback.exprs true)) :
    NamesOnly p ((tempFor id value fallback).exprs true) := by
  have htype : NamesOnly p ((value.type.getD fallback).exprs true) :=
    namesOnly_getD (Expr.namesOnly_type h) hf
  simp [tempFor, htype]

theorem checkStmt_names {temp : Expr} {check : MemberRef} (ht : NamesOnly p (temp.exprs true))
    (hg : p getter) (hc : p check) :
    NamesOnly p ((checkStmt temp getter check).exprs true) := by
  simp_all [checkStmt, ExprForm.expr, Stmt.expression]

theorem readGroup_names (hr : NamesOnly p (receiver.exprs true))
    (he : NamesOnly p (typeExprs true e.type)) (hf : NamesOnly p (facts.type.exprs true))
    (href : p ref) (hg : p getter) (hw : p w.checkIsReading) :
    NamesOnly p ((readGroup w id e receiver ref facts getter).exprs true) := by
  have ht : NamesOnly p ((tempFor id receiver (.bound facts.declaringType)).exprs true) :=
    tempFor_names hr (by simp)
  have hc := checkStmt_names ht hg hw
  have hd := namesOnly_getD he hf
  simp_all [readGroup, Stmt.assignment, Stmt.expression]

theorem writeGroup_names {target : Expr} (hr : NamesOnly p (receiver.exprs true))
    (hv : NamesOnly p (value.exprs true)) (he : NamesOnly p (typeExprs true target.type))
    (hf : NamesOnly p (facts.type.exprs true)) (href : p ref) (hg : p getter)
    (hw : p w.checkIsWriting) :
    NamesOnly p
      ((writeGroup w id valueId target receiver value source ref facts getter).exprs true) := by
  have ht : NamesOnly p ((tempFor id receiver (.bound facts.declaringType)).exprs true) :=
    tempFor_names hr (by simp)
  have hh : NamesOnly p ((tempFor valueId value facts.type).exprs true) := tempFor_names hv hf
  have hc := checkStmt_names ht hg hw
  have hd := namesOnly_getD he hf
  simp_all [writeGroup, Stmt.assignment]

end

/-! ## Bodies -/

/-- No lookup has failed so far. -/
def Quiet (s : State) : Prop := s.failure = none

variable {u : Universe} {w : WellKnown}

theorem editMember_keeps (h : u.Closed) (hw : u.Has w.checkIsReading) {receiver : Option Expr}
    {ref : MemberRef} {type : Option TypeRef} {source : Option SourceContext}
    {edit : Edit State (Option Expr)}
    (hr : edit.Yields ((keepsNames u.Has Quiet).option receiver)) :
    (editMember u w ⟨.member receiver ref, type, source⟩ ref edit).Yields
      ((keepsNames u.Has Quiet).walked ⟨.member receiver ref, type, source⟩) := by
  refine editMember_yields hr (fun s r s' keeps _ hn hs => ?_)
    (fun s r s' facts getter keeps hf hg hn hs => ?_)
  all_goals
    obtain ⟨href, hreceiver, htype⟩ := namesOnly_member.mp hn
    rw [State.noting_of_has h href] at keeps
    obtain ⟨hr', hs'⟩ := keeps hreceiver hs
  · exact ⟨namesOnly_member.mpr ⟨href, hr', htype⟩, hs'⟩
  · exact ⟨readGroup_names hr' htype (type_names h hf) href (has_of_readGuard h hf hg) hw, hs'⟩

theorem editAssignment_keeps (h : u.Closed) (hw : u.Has w.checkIsWriting) {receiver : Option Expr}
    {ref : MemberRef} {type : Option TypeRef} {targetSource source : Option SourceContext}
    {value : Expr} {editTarget editValue : Edit State Expr}
    {editReceiver : Edit State (Option Expr)}
    (ht : editTarget.Yields
      ((keepsNames u.Has Quiet).expr ⟨.member receiver ref, type, targetSource⟩))
    (hv : editValue.Yields ((keepsNames u.Has Quiet).expr value))
    (hr : editReceiver.Yields ((keepsNames u.Has Quiet).option receiver)) :
    (editAssignment u w ⟨⟨.member receiver ref, type, targetSource⟩, value, source, editTarget,
      editValue, editReceiver⟩).Yields ((keepsNames u.Has Quiet).stmt
        ⟨.assignment ⟨.member receiver ref, type, targetSource⟩ value, source⟩) := by
  refine editAssignment_yields ht hv hr (fun s t s₁ v s' _ keepsTarget keepsValue hn hs => ?_)
    (fun s r s₁ v s' keeps keepsValue _ _ hn hs => ?_)
    (fun s r s₁ v s' facts getter keeps keepsValue hf hg hn hs => ?_)
  all_goals
    obtain ⟨htarget, hvalue⟩ := namesOnly_append.mp hn
    obtain ⟨href, hreceiver, htype⟩ := namesOnly_member.mp htarget
  · rw [State.noting_of_has h href] at keepsTarget
    obtain ⟨ht', hs₁⟩ := keepsTarget htarget hs
    obtain ⟨hv', hs'⟩ := keepsValue hvalue hs₁
    exact ⟨namesOnly_append.mpr ⟨ht', hv'⟩, hs'⟩
  · rw [State.noting_of_has h href] at keeps
    obtain ⟨hr', hs₁⟩ := keeps hreceiver hs
    obtain ⟨hv', hs'⟩ := keepsValue hvalue hs₁
    exact ⟨namesOnly_append.mpr ⟨namesOnly_member.mpr ⟨href, hr', htype⟩, hv'⟩, hs'⟩
  · rw [State.noting_of_has h href] at keeps
    obtain ⟨hr', hs₁⟩ := keeps hreceiver hs
    obtain ⟨hv', hs'⟩ := keepsValue hvalue hs₁
    have hgetter : u.Has getter := has_of_readGuard h hf (readGuard_of_writeGuard hg)
    exact ⟨writeGroup_names hr' hv' htype (type_names h hf) href hgetter hw, hs'⟩

theorem editor_closed (h : u.Closed) (hr : u.Has w.checkIsReading) (hw : u.Has w.checkIsWriting) :
    (keepsNames u.Has Quiet).Closed (editor u w) :=
  keepsNames_closed (fun hwalk => hwalk) (editMember_keeps h hr) rfl (editAssignment_keeps h hw)
    editAssignment_walk

/-- Instrumentation is sound where the checks are there. -/
theorem pass_sound (hr : u.Has w.checkIsReading) (hw : u.Has w.checkIsWriting) :
    (pass w).Sound u.layout where
  editBody := by
    intro u' body ref state hu hn
    have closed := editor_closed hu.closed (Universe.has_of_layout hu.layout_eq.symm hr)
      (Universe.has_of_layout hu.layout_eq.symm hw)
    obtain ⟨hnames, hquiet⟩ := closed.editBlock body.block { tempCount := body.tempCount } hn rfl
    exact ⟨hquiet, hnames⟩
  finishMethod := fun hs _ => .pure hs

end Guard

end MiddleEnd
