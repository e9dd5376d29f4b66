/-
  Assignment expressions under the passes that edit bodies. Binding and elimination leave an
  assignment an assignment, so an expression that wraps one goes on to do so. Instrumentation puts
  a block in the place of a guarded write, also where an expression wraps the write: exactly then an
  assignment expression ends up with a block (`wrapsAssignments_of_passes`).
-/
import MiddleEnd.Pass.Binding
import MiddleEnd.Proofs.Code.Wrapping
import MiddleEnd.Proofs.Conditional.Remains
import MiddleEnd.Proofs.Guard.Counting
import MiddleEnd.Proofs.Sample

namespace MiddleEnd

/-! ## Binding -/

namespace Binding

/-- Binding an expression neither wraps nor unwraps a statement. -/
theorem wrapped_bindExpr {u : Universe} {owner : TypeId} {e : Expr} {s : State} :
    wrapped ((bindExpr u owner e s).1.exprs false) = wrapped (e.exprs false) := by
  obtain ⟨form, type, source⟩ := e
  cases form with
  | identifier name =>
      dsimp only [bindExpr]
      rcases lookup u owner name with _ | found
      · rfl
      · show wrapped (Expr.exprs false ⟨.member (if found.isStatic then none else some (self owner))
          found.member, found.valueType, source⟩) = _
        cases found.isStatic <;> simp [self, ExprForm.wrapped?]
  | qualified qualifier name =>
      dsimp only [bindExpr]
      rcases (boundType? qualifier).bind fun type => lookup u type name with _ | found
      · rfl
      · show wrapped (Expr.exprs false ⟨.member (some qualifier) found.member, found.valueType,
          source⟩) = _
        simp [ExprForm.wrapped?]
  | thisRef =>
      show wrapped (Expr.exprs false ⟨.thisRef, some (.bound owner), source⟩) = _
      simp
  | call callee arguments =>
      show wrapped (Expr.exprs false ⟨.call callee arguments, (callType u callee).or type,
        source⟩) = _
      simp
  | _ => rfl

theorem rewraps_editor (u : Universe) (owner : TypeId) :
    (rewraps Stmt.isAssignment).Closed (editor u owner) := by
  refine rewraps_closed (fun _ h => h) (fun hw => ?_) (fun hr => ?_) rfl (fun ht hv _ => ?_)
    fun _ ht hv => ?_
  · intro s
    obtain ⟨walked, s', run, h⟩ := hw s
    refine ⟨_, _, Edit.bind_run run _, ?_⟩
    show List.map _ (wrapped ((bindExpr u owner walked s').1.exprs false)) = _
    rw [wrapped_bindExpr]
    exact h
  · intro s
    obtain ⟨receiver', s', run, h⟩ := hr s
    exact ⟨_, s', Edit.bind_run run _, .node rfl rfl h.2⟩
  · exact AssignmentParts.walk_yields ht hv fun _ _ _ _ _ ht hv => ⟨rfl, .append ht hv⟩
  · exact AssignmentParts.walk_yields ht hv fun _ _ _ _ _ ht hv => ⟨rfl, .append ht hv⟩

end Binding

/-! ## Instrumentation -/

namespace Guard

/-- The statement assigns to a guarded field of an object that others may see. -/
def WritesGuarded (u : Universe) (s : Stmt) : Prop :=
  ∃ receiver ref type source value,
    s.form = .assignment ⟨.member (some receiver) ref, type, source⟩ value ∧
    (∃ getter, GuardedBy u ref getter) ∧ ¬ InValueType u ref

/-- The statement is an assignment behind instrumentation. -/
def staysAssignment (u : Universe) (s : Stmt) : Bool :=
  match s.form with
  | .assignment ⟨.member (some _) ref, _, _⟩ _ => (writeGetter? u ref).isNone
  | .assignment _ _ => true
  | _ => false

theorem staysAssignment_iff {u : Universe} {s : Stmt} (h : s.isAssignment = true) :
    staysAssignment u s = true ↔ ¬ WritesGuarded u s := by
  unfold staysAssignment
  split
  · rename_i target type source value hform
    rw [Option.isNone_iff_eq_none, ← Option.not_isSome_iff_eq_none, writeGetter?_isSome_iff]
    refine not_congr ⟨fun hg => ⟨_, _, _, _, _, hform, hg⟩, ?_⟩
    rintro ⟨receiver, ref, type, source, value, hform', hg⟩
    rw [hform'] at hform
    cases hform
    exact hg
  · rename_i target value hother hform
    simp only [true_iff]
    rintro ⟨receiver, ref, type, source, value, hform', -⟩
    rw [hform'] at hform
    cases hform
    exact hother _ _ _ _ rfl
  · rename_i hother
    obtain ⟨form, source⟩ := s
    cases form with
    | assignment target value => exact absurd rfl (hother target value)
    | _ => cases h

/-- An assignment to a member stays one if it has no receiver or its write passes no guard. -/
theorem staysAssignment_member {u : Universe} {receiver : Option Expr} {ref : MemberRef}
    {type : Option TypeRef} {targetSource source : Option SourceContext} {value : Expr} :
    staysAssignment u ⟨.assignment ⟨.member receiver ref, type, targetSource⟩ value, source⟩ =
      (receiver.isNone || (writeGetter? u ref).isNone) := by
  cases receiver <;> rfl

theorem staysAssignment_of_ne_member {u : Universe} {target value : Expr}
    {source : Option SourceContext} (h : ∀ receiver ref, target.form ≠ .member receiver ref) :
    staysAssignment u ⟨.assignment target value, source⟩ = true := by
  obtain ⟨form, type, targetSource⟩ := target
  cases form with
  | member receiver ref => exact absurd rfl (h receiver ref)
  | _ => rfl

theorem wrapped_readGroup {w : WellKnown} {id : LocalId} {e receiver : Expr}
    {ref getter : MemberRef} {facts : FieldFacts} :
    wrapped ((readGroup w id e receiver ref facts getter).exprs false) =
      wrapped (receiver.exprs false) := by
  simp [readGroup, tempFor, checkStmt, Stmt.assignment, Stmt.expression, ExprForm.expr,
    ExprForm.wrapped?]

theorem wrapped_writeGroup {w : WellKnown} {id valueId : LocalId} {target receiver value : Expr}
    {source : Option SourceContext} {ref getter : MemberRef} {facts : FieldFacts} :
    wrapped ((writeGroup w id valueId target receiver value source ref facts getter).exprs false) =
      wrapped (receiver.exprs false) ++ wrapped (value.exprs false) := by
  simp [writeGroup, tempFor, checkStmt, Stmt.assignment, Stmt.expression, ExprForm.expr,
    ExprForm.wrapped?]

theorem rewraps_editor (u : Universe) (w : WellKnown) :
    (rewraps (staysAssignment u)).Closed (editor u w) := by
  refine rewraps_closed ?other (fun h => h) ?member rfl ?assignMember ?assign
  case other =>
    intro st hst
    obtain ⟨form, source⟩ := st
    cases form with
    | assignment target value => cases hst
    | _ => rfl
  case member =>
    intro receiver ref type source edit hr
    refine editMember_yields hr (fun s r s' hr _ => ?_) (fun s r s' facts getter hr _ _ => ?_)
    · exact .node rfl rfl hr.2
    · show List.map _ (wrapped _) = List.map _ (wrapped _)
      rw [wrapped_readGroup]
      simpa [Rewraps, ExprForm.wrapped?] using hr.2
  case assignMember =>
    intro receiver ref type targetSource source value editTarget editValue editReceiver ht hv hr
    refine editAssignment_yields ht hv hr (fun s t s₁ v s' hf ht hv => ?_)
      (fun s r s₁ v s' hr hv _ hg => ?_) (fun s r s₁ v s' facts getter hr hv hf hg => ?_)
    · have hw : writeGetter? u ref = none := by rw [writeGetter?, hf]; rfl
      refine ⟨?_, .append ht hv⟩
      rw [staysAssignment_member, hw, Option.isNone_none, Bool.or_true]
      rfl
    · obtain ⟨hsome, hr⟩ := hr
      refine ⟨?_, .append (.node rfl rfl hr) hv⟩
      rw [staysAssignment_member]
      rcases hg with hg | rfl
      · rw [hg, Option.isNone_none, Bool.or_true]
        rfl
      · rw [Option.isSome_none] at hsome
        rw [← Option.not_isSome, ← hsome]
        rfl
    · obtain ⟨hsome, hr⟩ := hr
      have hget : writeGetter? u ref = some getter := by rw [writeGetter?, hf]; exact hg
      refine ⟨?_, ?_⟩
      · rw [staysAssignment_member, hget, ← Option.not_isSome, ← hsome]
        rfl
      · show List.map _ (wrapped _) = List.map _ (wrapped _)
        rw [wrapped_writeGroup]
        simpa [Rewraps, ExprForm.wrapped?] using hr.append hv
  case assign =>
    intro target value source editTarget editValue hm ht hv
    rw [show (editor u w).assignment = editAssignment u w from rfl, editAssignment_walk hm]
    refine AssignmentParts.walk_yields ht hv fun s t s₁ v s' ht hv => ⟨?_, .append ht hv⟩
    exact (staysAssignment_of_ne_member hm).symm

end Guard

/-! ## Elimination -/

namespace Conditional

/-- Pruning leaves an assignment an assignment. -/
theorem isAssignment_pruneStmt {dead : Expr → Bool} (s : Stmt) :
    (pruneStmt dead s).isAssignment = s.isAssignment := by
  obtain ⟨form, source⟩ := s
  cases form <;> rfl

theorem wrapsAssignments_editBody {u : Universe} {method : MemberRef} {body : Body} {state : State}
    (h : WrapsAssignments (body.block.exprs false)) :
    WrapsAssignments ((editBody u method body state).body.block.exprs false) := by
  intro s' hs'
  rw [editBody_block] at hs'
  obtain ⟨e', he', hwrapped⟩ := List.mem_filterMap.mp hs'
  obtain ⟨⟨form, type, source⟩, he, rfl⟩ := exists_of_mem_keepBlock he'
  cases form with
  | assignment s =>
      obtain rfl : pruneStmt _ s = s' := Option.some.inj hwrapped
      rw [isAssignment_pruneStmt]
      exact h s (List.mem_filterMap.mpr ⟨_, he, rfl⟩)
  | _ => cases hwrapped

end Conditional

/-- Where every assignment expression wraps an assignment, binding and elimination leave it so.
    Instrumentation does exactly if none of the wrapped assignments is a guarded write. -/
theorem wrapsAssignments_of_passes (w : WellKnown) (u : Universe) (method : MemberRef) (body : Body)
    (h : WrapsAssignments (body.block.exprs false)) :
    (∀ bound, WrapsAssignments
      ((Binding.editBody u method body bound).body.block.exprs false)) ∧
    (∀ state, WrapsAssignments
      ((Conditional.editBody u method body state).body.block.exprs false)) ∧
    ∀ instrumented,
      WrapsAssignments ((Guard.editBody w u method body instrumented).body.block.exprs false) ↔
        ∀ s ∈ wrapped (body.block.exprs false), ¬ Guard.WritesGuarded u s := by
  refine ⟨fun bound => ?_, fun state => Conditional.wrapsAssignments_editBody h,
    fun instrumented => ?_⟩
  · have hbound := (Binding.rewraps_editor u method.type).editBlock body.block {}
    exact hbound.wrapsAssignments_iff.mpr h
  · have hguarded := (Guard.rewraps_editor u w).editBlock body.block { tempCount := body.tempCount }
    refine hguarded.wrapsAssignments_iff.trans (forall₂_congr fun s hs => ?_)
    exact Guard.staysAssignment_iff (h s hs)

/-- `return (target = value)` -/
def returning (target value : Expr) : Body where
  block := { statements := [⟨.ret (some (ExprForm.assignment (.assignment target value)).expr),
    none⟩] }

/-- The assignment in `return (amount = this.coins)` stays one, since only the read is guarded. -/
theorem wrapsAssignments_of_reading :
    let body := returning (ExprForm.identifier "amount").expr (Wallet.coinsOf Wallet.self)
    let edited := Guard.editBody Wallet.checks Wallet.types Wallet.spare body 0
    WrapsAssignments (body.block.exprs false) ∧ edited.state = 1 ∧
    (wrapped (edited.body.block.exprs false)).length = 1 ∧
    WrapsAssignments (edited.body.block.exprs false) := by
  refine ⟨by decide, by decide, by decide, ?_⟩
  refine ((wrapsAssignments_of_passes _ _ _ _ (by decide)).2.2 0).mpr ?_
  rintro s hs ⟨receiver, ref, type, source, value, hform, -⟩
  obtain rfl := List.mem_singleton.mp hs
  cases hform

/-- In `return (this.coins = amount)` the expression is left with a block. -/
theorem not_wrapsAssignments_of_writing :
    let body := returning (Wallet.coinsOf Wallet.self) (ExprForm.identifier "amount").expr
    let edited := Guard.editBody Wallet.checks Wallet.types Wallet.spare body 0
    WrapsAssignments (body.block.exprs false) ∧ edited.failure = none ∧ edited.breakOff = none ∧
    ¬ WrapsAssignments (edited.body.block.exprs false) := by
  decide

end MiddleEnd
