/-
  Code without guarded accesses. An access has to pass a guard if the field it reads or writes has
  one (`checkpoint?`); where it stands otherwise does not matter. Every group of instrumented code
  accesses a guarded field, so code without such accesses holds no group, and erasing guards leaves
  it alone (`eraser_onExpr_of_unguarded`).
-/
import MiddleEnd.Proofs.Code.Access
import MiddleEnd.Proofs.Guard.Erasure

namespace MiddleEnd.Guard

/-- The guard that an access has to pass: how to get it from the object, and what to call on it. -/
structure Checkpoint where
  getter : MemberRef
  check : MemberRef

/-- The guard of an access, if the instrumentation puts one there. -/
def checkpoint? (u : Universe) (w : WellKnown) (a : Access) : Option Checkpoint :=
  match a.site with
  | .assigned _ _ => (writeGetter? u a.ref).map fun getter => ⟨getter, w.checkIsWriting⟩
  | .inner | .whole _ => (readGetter? u a.ref).map fun getter => ⟨getter, w.checkIsReading⟩

/-- None of the accesses has to pass a guard. -/
def Unguarded (u : Universe) (w : WellKnown) (as : List Access) : Prop :=
  ∀ a ∈ as, checkpoint? u w a = none

section

variable {u : Universe} {w : WellKnown}

@[simp]
theorem unguarded_nil : Unguarded u w [] := by simp [Unguarded]

@[simp]
theorem unguarded_cons {a : Access} {as : List Access} :
    Unguarded u w (a :: as) ↔ checkpoint? u w a = none ∧ Unguarded u w as :=
  List.forall_mem_cons

@[simp]
theorem unguarded_append {as bs : List Access} :
    Unguarded u w (as ++ bs) ↔ Unguarded u w as ∧ Unguarded u w bs :=
  List.forall_mem_append

/-! ## Code without groups -/

theorem readOf?_of_unguarded {b : Block} (h : Unguarded u w b.accesses) : readOf? u w b = none := by
  unfold readOf?
  split
  · split
    · rename_i getter hg
      -- The last statement of a group reads the guarded field.
      simp only [Block.accesses, stmtsAccesses, Stmt.accesses, StmtForm.accesses, Expr.accesses,
        ExprForm.accesses, unguarded_append, unguarded_cons, checkpoint?, hg] at h
      exact absurd h.2.2.1.1 (by simp)
    · rfl
  · rfl

theorem writeOf?_of_unguarded {b : Block} (h : Unguarded u w b.accesses) :
    writeOf? u w b = none := by
  unfold writeOf?
  split
  · split
    · rename_i getter hg
      simp only [Block.accesses, stmtsAccesses, Stmt.accesses, StmtForm.accesses, Expr.accesses,
        ExprForm.accesses, unguarded_append, unguarded_cons, checkpoint?, hg] at h
      exact absurd h.2.2.2.1.1.1 (by simp)
    · rfl
  · rfl

mutual

/-- Erasing guards leaves an expression without guarded accesses alone. -/
theorem eraser_onExpr_of_unguarded {site : Site} : (e : Expr) → Unguarded u w (e.accesses site) →
    (eraser u w).onExpr e = e
  | ⟨form, type, source⟩ => fun h => by
      rw [Rewriting.onExpr, eraser_onForm_of_unguarded form h]

theorem eraser_onForm_of_unguarded {site : Site} : (form : ExprForm) →
    Unguarded u w (form.accesses site) → (eraser u w).onForm form = form
  | .member none ref => fun _ => rfl
  | .member (some receiver) ref => fun h => by
      rw [Rewriting.onForm, Rewriting.onOption,
        eraser_onExpr_of_unguarded receiver (unguarded_cons.mp h).2]
  | .call callee arguments => fun h => by
      obtain ⟨hc, ha⟩ := unguarded_append.mp h
      rw [Rewriting.onForm, eraser_onExpr_of_unguarded callee hc,
        eraser_onExprs_of_unguarded arguments ha]
  | .qualified qualifier name => fun h => by
      rw [Rewriting.onForm, eraser_onExpr_of_unguarded qualifier h]
  | .binary op left right => fun h => by
      obtain ⟨hl, hr⟩ := unguarded_append.mp h
      rw [Rewriting.onForm, eraser_onExpr_of_unguarded left hl,
        eraser_onExpr_of_unguarded right hr]
  | .assignment statement => fun h => by
      rw [Rewriting.onForm, eraser_onStmt_of_unguarded statement h]
  | .cast operand target => fun h => by
      rw [Rewriting.onForm, eraser_onExpr_of_unguarded operand h]
  | .indexer object operands => fun h => by
      obtain ⟨ho, hs⟩ := unguarded_append.mp h
      rw [Rewriting.onForm, eraser_onExpr_of_unguarded object ho,
        eraser_onExprs_of_unguarded operands hs]
  | .constructArray element size initializers => fun h => by
      obtain ⟨hs, hi⟩ := unguarded_append.mp h
      rw [Rewriting.onForm, eraser_onExpr_of_unguarded size hs,
        eraser_onExprs_of_unguarded initializers hi]
  | .construct constructed operands => fun h => by
      rw [Rewriting.onForm, eraser_onExprs_of_unguarded operands h]
  | .constructDelegate delegate target method => fun h => by
      rw [Rewriting.onForm, eraser_onExpr_of_unguarded target h]
  | .addressOf operand => fun h => by
      rw [Rewriting.onForm, eraser_onExpr_of_unguarded operand h]
  | .block block => fun h => by
      rw [Rewriting.onForm, eraser_onBlock_of_unguarded block h, eraser_block,
        readOf?_of_unguarded h]
      rfl
  | .literal _ | .identifier _ | .thisRef | .baseRef | .setterValue | .typeExpr _ | .typeOf _
  | .snippet | .temporary _ | .missing => fun _ => rfl

theorem eraser_onOption_of_unguarded : (e : Option Expr) → Unguarded u w (optionAccesses e) →
    (eraser u w).onOption e = e
  | none => fun _ => rfl
  | some e => fun h => by rw [Rewriting.onOption, eraser_onExpr_of_unguarded e h]

theorem eraser_onExprs_of_unguarded : (es : List Expr) → Unguarded u w (exprsAccesses es) →
    (eraser u w).onExprs es = es
  | [] => fun _ => rfl
  | e :: es => fun h => by
      obtain ⟨he, hs⟩ := unguarded_append.mp h
      rw [Rewriting.onExprs, eraser_onExpr_of_unguarded e he, eraser_onExprs_of_unguarded es hs]

theorem eraser_onStmt_of_unguarded {context : Context} : (s : Stmt) →
    Unguarded u w (s.accesses context) → (eraser u w).onStmt s = s
  | ⟨form, source⟩ => fun h => by
      rw [Rewriting.onStmt, eraser_onStmtForm_of_unguarded form h]

theorem eraser_onStmtForm_of_unguarded {context : Context} : (form : StmtForm) →
    Unguarded u w (form.accesses context) → (eraser u w).onStmtForm form = form
  | .assignment target value => fun h => by
      obtain ⟨ht, hv⟩ := unguarded_append.mp h
      rw [Rewriting.onStmtForm, eraser_onExpr_of_unguarded target ht,
        eraser_onExpr_of_unguarded value hv, eraser_assignment]
  | .attachEvent event handler => fun h => by
      obtain ⟨he, hh⟩ := unguarded_append.mp h
      rw [Rewriting.onStmtForm, eraser_onExpr_of_unguarded event he,
        eraser_onExpr_of_unguarded handler hh]
  | .removeEvent event handler => fun h => by
      obtain ⟨he, hh⟩ := unguarded_append.mp h
      rw [Rewriting.onStmtForm, eraser_onExpr_of_unguarded event he,
        eraser_onExpr_of_unguarded handler hh]
  | .branch condition whenTrue whenFalse => fun h => by
      obtain ⟨h, hf⟩ := unguarded_append.mp h
      obtain ⟨hc, ht⟩ := unguarded_append.mp h
      rw [Rewriting.onStmtForm, eraser_onExpr_of_unguarded condition hc,
        eraser_onBlock_of_unguarded whenTrue ht, eraser_onBlock_of_unguarded whenFalse hf]
  | .expression expression => fun h => by
      rw [Rewriting.onStmtForm, eraser_onExpr_of_unguarded expression h]
  | .labeled label statement => fun h => by
      rw [Rewriting.onStmtForm, eraser_onLabeled_of_unguarded statement h]
  | .loop init test increment body => fun h => by
      obtain ⟨h, hb⟩ := unguarded_append.mp h
      obtain ⟨h, hi⟩ := unguarded_append.mp h
      obtain ⟨hs, ht⟩ := unguarded_append.mp h
      rw [Rewriting.onStmtForm, eraser_onLoose_of_unguarded init hs,
        eraser_onOption_of_unguarded test ht, eraser_onLoose_of_unguarded increment hi,
        eraser_onBlock_of_unguarded body hb]
  | .ret value => fun h => by
      rw [Rewriting.onStmtForm, eraser_onOption_of_unguarded value h]
  | .raise value => fun h => by
      rw [Rewriting.onStmtForm, eraser_onOption_of_unguarded value h]
  | .protect body catchers last => fun h => by
      obtain ⟨h, hl⟩ := unguarded_append.mp h
      obtain ⟨hb, hc⟩ := unguarded_append.mp h
      rw [Rewriting.onStmtForm, eraser_onBlock_of_unguarded body hb,
        eraser_onCatchers_of_unguarded catchers hc, eraser_onLast_of_unguarded last hl]
  | .declaration name type init => fun h => by
      rw [Rewriting.onStmtForm, eraser_onOption_of_unguarded init h]
  | .block block => fun h => by
      rw [Rewriting.onStmtForm, eraser_onBlock_of_unguarded block h, eraser_blockStmt,
        writeOf?_of_unguarded h]
      rfl
  | .goto _ | .snippet => fun _ => rfl

theorem eraser_onLabeled_of_unguarded : (s : Option Stmt) → Unguarded u w (labeledAccesses s) →
    (eraser u w).onLabeled s = s
  | none => fun _ => rfl
  | some s => fun h => by rw [Rewriting.onLabeled, eraser_onStmt_of_unguarded s h]

theorem eraser_onLoose_of_unguarded : (ss : List Stmt) → Unguarded u w (looseAccesses ss) →
    (eraser u w).onStmts ss = ss
  | [] => fun _ => rfl
  | s :: ss => fun h => by
      obtain ⟨hs, hss⟩ := unguarded_append.mp h
      rw [Rewriting.onStmts, eraser_onStmt_of_unguarded s hs, eraser_onLoose_of_unguarded ss hss]

theorem eraser_onStmts_of_unguarded {before : List Stmt} : (ss : List Stmt) →
    Unguarded u w (stmtsAccesses before ss) → (eraser u w).onStmts ss = ss
  | [] => fun _ => rfl
  | s :: ss => fun h => by
      obtain ⟨hs, hss⟩ := unguarded_append.mp h
      rw [Rewriting.onStmts, eraser_onStmt_of_unguarded s hs, eraser_onStmts_of_unguarded ss hss]

theorem eraser_onCatchers_of_unguarded : (cs : List Catcher) →
    Unguarded u w (catchersAccesses cs) → (eraser u w).onCatchers cs = cs
  | [] => fun _ => rfl
  | ⟨type, name, block⟩ :: cs => fun h => by
      obtain ⟨hb, hs⟩ := unguarded_append.mp h
      rw [Rewriting.onCatchers, eraser_onBlock_of_unguarded block hb,
        eraser_onCatchers_of_unguarded cs hs]

theorem eraser_onLast_of_unguarded : (block : Option Block) → Unguarded u w (lastAccesses block) →
    (eraser u w).onLast block = block
  | none => fun _ => rfl
  | some block => fun h => by rw [Rewriting.onLast, eraser_onBlock_of_unguarded block h]

theorem eraser_onBlock_of_unguarded : (block : Block) → Unguarded u w block.accesses →
    (eraser u w).onBlock block = block
  | ⟨statements, source⟩ => fun h => by
      rw [Rewriting.onBlock, eraser_onStmts_of_unguarded statements h]

end

end

end MiddleEnd.Guard
