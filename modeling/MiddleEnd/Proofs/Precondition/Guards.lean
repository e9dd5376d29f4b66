/-
  Preconditions seen through guards. Instrumentation reads a field through a temporary that holds
  the receiver, and collection puts the receiver back in its place, but only if nothing in the
  receiver is guarded itself. So of the facts that a body relies on, those that read no guarded
  field are found again behind instrumentation, and those that do are lost, unless the same fact is
  declared by a method or needed by a check (`seen_through_guards_iff`). For `this.heir.coins` with
  two guarded fields, that `this.heir` is not null is no longer known (`heir_lost_behind_guards`).
-/
import MiddleEnd.Proofs.Precondition.Tracking

namespace MiddleEnd

namespace Preconditions

open Guard

variable {u : Universe} {w : WellKnown} {p : Precondition}

/-- Before instrumentation, a body relies on the receivers of all its accesses. -/
theorem mem_facts_collect (w : WellKnown) {block : Block} (h : block.NoTemporaries) :
    p ∈ (collect u block).facts ↔
      Found u (Relies u) block.accesses (block.exprs false) p := by
  have htracks := (tracking_closed u w).editBlock block { tempCount := 0 }
  have hfacts := (htracks.plain h).facts {} (fun _ _ _ => rfl) p
  exact hfacts.trans (or_iff_right List.not_mem_nil)

/-- Behind it, only on those that hold no guarded access, and on what the checks need. -/
theorem mem_facts_collect_editBody (method : MemberRef) {body : Body} (instrumented : Nat)
    (h : body.block.NoTemporaries) :
    p ∈ (collect u (Guard.editBody w u method body instrumented).body.block).facts ↔
      Found u (ToldBehind u w) body.block.accesses (body.block.exprs false) p := by
  have htracks := (tracking_closed u w).editBlock body.block { tempCount := body.tempCount }
  have hfacts := (htracks.behind h).facts {} (fun _ _ _ => rfl) p
  exact hfacts.trans (or_iff_right List.not_mem_nil)

/-- The fact is declared by a method that the block calls, or needed by the check of one of its
    accesses. -/
def BroughtIn (u : Universe) (w : WellKnown) (block : Block) (p : Precondition) : Prop :=
  (∃ e ∈ block.exprs false, CallsDeclaring u e p) ∨ ∃ a ∈ block.accesses, CheckRelies u w a p

theorem found_toldBehind_iff {block : Block} :
    Found u (ToldBehind u w) block.accesses (block.exprs false) p ↔
      BroughtIn u w block p ∨
        ∃ a ∈ block.accesses, Unguarded u w (a.receiver.accesses .inner) ∧ Relies u a p := by
  simp only [Found, ToldBehind, BroughtIn, and_or_left, exists_or]
  grind

/-- A fact that a body relies on is found behind instrumentation, with the guards in it erased,
    exactly if it holds no guarded access or is brought in from elsewhere. -/
theorem seen_through_guards_iff (u : Universe) (w : WellKnown) (method : MemberRef) (body : Body)
    (instrumented : Nat) (h : body.block.NoTemporaries) (e : Expr)
    (he : .nonNull e ∈ (collect u body.block).facts) :
    (∃ q, .nonNull q ∈
        (collect u (Guard.editBody w u method body instrumented).body.block).facts ∧
        (eraser u w).onExpr q = e) ↔
      Unguarded u w (e.accesses .inner) ∨
        ∃ q, BroughtIn u w body.block (.nonNull q) ∧ (eraser u w).onExpr q = e := by
  simp only [mem_facts_collect_editBody method instrumented h, found_toldBehind_iff]
  constructor
  · rintro ⟨q, hq | ⟨a, -, hu, -, hp⟩, hqe⟩
    · exact Or.inr ⟨q, hq, hqe⟩
    · -- Nothing guarded is in a receiver that is still told, so erasing leaves it alone.
      cases hp
      rw [eraser_onExpr_of_unguarded a.receiver hu] at hqe
      exact Or.inl (hqe ▸ hu)
  · rintro (hu | ⟨q, hq, hqe⟩)
    · refine ⟨e, ?_, eraser_onExpr_of_unguarded e hu⟩
      rcases (mem_facts_collect w h).mp he with ⟨a, ha, hi, hp⟩ | hcall
      · cases hp
        exact Or.inr ⟨a, ha, hu, hi, rfl⟩
      · exact Or.inl (Or.inl hcall)
    · exact ⟨q, Or.inl hq, hqe⟩

end Preconditions

namespace Wallet

/-- A guarded field that holds another wallet. -/
def heir : MemberRef := ⟨walletId, 4⟩

def heirNode : TypeNode := { walletNode with
  members := walletNode.members ++
    [memberOf walletId "heir" (.field { type := .bound walletId })] }

def family : Universe :=
  ⟨⟨#[{ id := ⟨0⟩, name := "wallets", types := ⟨#[guardNode, heirNode]⟩ }]⟩⟩

/-- `this.heir` -/
def heirOfSelf : Expr := (ExprForm.member (some self) heir).expr

/-- `return this.heir.coins` -/
def heirCoins : Body where
  block := { statements := [{ form := .ret (some (coinsOf heirOfSelf)) }] }

end Wallet

namespace Preconditions

open Guard Wallet

/-- The wallet itself is still known not to be null. -/
theorem self_seen_through_guards :
    heirCoins.block.NoTemporaries ∧ .nonNull self ∈ (collect family heirCoins.block).facts ∧
    Unguarded family checks (self.accesses .inner) ∧
    ∃ q, .nonNull q ∈
        (collect family (Guard.editBody checks family spare heirCoins 0).body.block).facts ∧
      (eraser family checks).onExpr q = self := by
  have hn : heirCoins.block.NoTemporaries := by decide
  have hfact : .nonNull self ∈ (collect family heirCoins.block).facts := by
    rw [show (collect family heirCoins.block).facts = [.nonNull heirOfSelf, .nonNull self] from rfl]
    simp
  have hu : Unguarded family checks (self.accesses .inner) := by simp [self, ExprForm.expr]
  exact ⟨hn, hfact, hu,
    (seen_through_guards_iff family checks spare heirCoins 0 hn self hfact).mpr (Or.inl hu)⟩

/-- The body relies on the heir, but behind instrumentation that is told no more, whatever is put
    in the place of blocks. -/
theorem heir_lost_behind_guards :
    heirCoins.block.NoTemporaries ∧
    .nonNull heirOfSelf ∈ (collect family heirCoins.block).facts ∧
    ∀ (f : Rewriting) (q : Expr), .nonNull q ∈
        (collect family (Guard.editBody checks family spare heirCoins 0).body.block).facts →
      f.onExpr q ≠ heirOfSelf := by
  refine ⟨by decide, ?_, fun f q hq => ?_⟩
  · rw [show (collect family heirCoins.block).facts = [.nonNull heirOfSelf, .nonNull self] from rfl]
    simp
  · rw [show (collect family (Guard.editBody checks family spare heirCoins 0).body.block).facts =
      [.nonNull (getterCall self getFrame), .nonNull self, .nonNull self] from rfl] at hq
    simp only [List.mem_cons, Precondition.nonNull.injEq, List.not_mem_nil, or_false] at hq
    rcases hq with rfl | rfl | rfl <;> simp [getterCall, heirOfSelf, self, ExprForm.expr]

end Preconditions

end MiddleEnd
