/-
  Which code conditional elimination deletes. Deletion starts at dead calls and climbs from required
  parts to what requires them (`Deleted`); blocks, lists of statements and places that may be empty
  stop it. Whatever is not deleted stays as it is, with its types and sources, but without the
  deleted code in those places (`pruneBlock`).
-/
import Mathlib.Logic.Basic
import MiddleEnd.Proofs.Conditional.Survival

namespace MiddleEnd.Conditional

/-! ## Deleted code -/

/-- Code that is deleted as a whole or not at all. -/
inductive Part where
  | expr (e : Expr)
  | stmt (s : Stmt)

/-- What an expression cannot do without. A block is not a required part. -/
def requiredByExpr : ExprForm → List Part
  | .qualified qualifier _ => [.expr qualifier]
  | .binary _ left right => [.expr left, .expr right]
  | .assignment statement => [.stmt statement]
  | .cast operand _ => [.expr operand]
  | .indexer object operands => .expr object :: operands.map .expr
  | .constructArray _ size initializers => .expr size :: initializers.map .expr
  | .construct _ operands => operands.map .expr
  | .constructDelegate _ target _ => [.expr target]
  | .call callee arguments => .expr callee :: arguments.map .expr
  | .member receiver _ => receiver.toList.map .expr
  | .addressOf operand => [.expr operand]
  | .literal _ | .identifier _ | .thisRef | .baseRef | .setterValue | .typeExpr _ | .typeOf _
  | .snippet | .block _ | .temporary _ | .missing => []

/-- What a statement cannot do without. -/
def requiredByStmt : StmtForm → List Part
  | .assignment target value => [.expr target, .expr value]
  | .attachEvent event handler | .removeEvent event handler => [.expr event, .expr handler]
  | .branch condition _ _ => [.expr condition]
  | .expression expression => [.expr expression]
  | .goto _ | .labeled _ _ | .loop _ _ _ _ | .ret _ | .raise _ | .protect _ _ _
  | .declaration _ _ _ | .snippet | .block _ => []

attribute [simp] requiredByExpr requiredByStmt

def Part.required : Part → List Part
  | .expr e => requiredByExpr e.form
  | .stmt s => requiredByStmt s.form

section

variable (dead : Expr → Bool)

/-- A call that goes on its own account. -/
def IsDeadCall (e : Expr) : Prop :=
  ∃ callee arguments, e.form = .call callee arguments ∧ dead callee = true

/-- Code goes if it is a dead call, or with a part that it requires. -/
inductive Deleted : Part → Prop
  | call {e : Expr} (h : IsDeadCall dead e) : Deleted (.expr e)
  | required {part child : Part} (hc : child ∈ part.required) (h : Deleted child) : Deleted part

/-! ## Pruned code -/

section

variable [DecidablePred (Deleted dead)]

mutual

def pruneExpr : Expr → Expr
  | ⟨form, type, source⟩ => ⟨pruneForm form, type, source⟩

def pruneForm : ExprForm → ExprForm
  | .qualified qualifier name => .qualified (pruneExpr qualifier) name
  | .binary op left right => .binary op (pruneExpr left) (pruneExpr right)
  | .assignment statement => .assignment (pruneStmt statement)
  | .cast operand target => .cast (pruneExpr operand) target
  | .indexer object operands => .indexer (pruneExpr object) (pruneExprs operands)
  | .constructArray element size initializers =>
    .constructArray element (pruneExpr size) (pruneExprs initializers)
  | .construct constructed operands => .construct constructed (pruneExprs operands)
  | .constructDelegate delegate target method =>
    .constructDelegate delegate (pruneExpr target) method
  | .call callee arguments => .call (pruneExpr callee) (pruneExprs arguments)
  | .member receiver ref => .member (pruneReceiver receiver) ref
  | .addressOf operand => .addressOf (pruneExpr operand)
  | .block block => .block (pruneBlock block)
  | .literal l => .literal l
  | .identifier name => .identifier name
  | .thisRef => .thisRef
  | .baseRef => .baseRef
  | .setterValue => .setterValue
  | .typeExpr t => .typeExpr t
  | .typeOf t => .typeOf t
  | .snippet => .snippet
  | .temporary id => .temporary id
  | .missing => .missing

def pruneReceiver : Option Expr → Option Expr
  | none => none
  | some receiver => some (pruneExpr receiver)

def pruneExprs : List Expr → List Expr
  | [] => []
  | e :: es => pruneExpr e :: pruneExprs es

/-- A place that may stay empty is emptied if what it holds is deleted. -/
def pruneOption : Option Expr → Option Expr
  | none => none
  | some e => if Deleted dead (.expr e) then none else some (pruneExpr e)

def pruneStmt : Stmt → Stmt
  | ⟨form, source⟩ => ⟨pruneStmtForm form, source⟩

def pruneStmtForm : StmtForm → StmtForm
  | .assignment target value => .assignment (pruneExpr target) (pruneExpr value)
  | .attachEvent event handler => .attachEvent (pruneExpr event) (pruneExpr handler)
  | .removeEvent event handler => .removeEvent (pruneExpr event) (pruneExpr handler)
  | .branch condition whenTrue whenFalse =>
    .branch (pruneExpr condition) (pruneBlock whenTrue) (pruneBlock whenFalse)
  | .expression expression => .expression (pruneExpr expression)
  | .goto label => .goto label
  | .labeled label statement => .labeled label (pruneLabeled statement)
  | .loop init test increment body =>
    .loop (pruneStmts init) (pruneOption test) (pruneStmts increment) (pruneBlock body)
  | .ret value => .ret (pruneOption value)
  | .raise value => .raise (pruneOption value)
  | .protect body catchers last =>
    .protect (pruneBlock body) (pruneCatchers catchers) (pruneLast last)
  | .declaration name type init => .declaration name type (pruneOption init)
  | .snippet => .snippet
  | .block block => .block (pruneBlock block)

def pruneLabeled : Option Stmt → Option Stmt
  | none => none
  | some s => if Deleted dead (.stmt s) then none else some (pruneStmt s)

/-- Deleted statements leave their list. -/
def pruneStmts : List Stmt → List Stmt
  | [] => []
  | s :: ss => if Deleted dead (.stmt s) then pruneStmts ss else pruneStmt s :: pruneStmts ss

def pruneCatchers : List Catcher → List Catcher
  | [] => []
  | ⟨type, name, block⟩ :: cs => ⟨type, name, pruneBlock block⟩ :: pruneCatchers cs

def pruneLast : Option Block → Option Block
  | none => none
  | some block => some (pruneBlock block)

def pruneBlock : Block → Block
  | ⟨statements, source⟩ => ⟨pruneStmts statements, source⟩

end

end

end

variable {dead : Expr → Bool}

theorem Deleted.iff {part : Part} :
    Deleted dead part ↔
      (∃ e, part = .expr e ∧ IsDeadCall dead e) ∨ ∃ child ∈ part.required, Deleted dead child := by
  constructor
  · rintro (h | ⟨hc, h⟩)
    · exact .inl ⟨_, rfl, h⟩
    · exact .inr ⟨_, hc, h⟩
  · rintro (⟨_, rfl, h⟩ | ⟨_, hc, h⟩)
    · exact .call h
    · exact .required hc h

/-! ## What is left is the pruned code -/

/-- What becomes of code: nothing if it is `gone`, and otherwise `left`. -/
def Fate {α : Type} (kept : Option α) (gone : Prop) (left : α) : Prop :=
  (gone → kept = none) ∧ (¬gone → kept = some left)

namespace Fate

variable {α β : Type} {kept : Option α} {p q : Prop} {a : α} {b : β}

theorem of (h : Fate kept p a) (hp : q ↔ p) : Fate kept q a :=
  ⟨fun hq => h.1 (hp.mp hq), fun hq => h.2 (mt hp.mpr hq)⟩

theorem pure (a : α) : Fate (some a) False a := ⟨False.elim, fun _ => rfl⟩

theorem bind {next : α → Option β} (h : Fate kept p a) (hn : Fate (next a) q b) :
    Fate (kept >>= next) (p ∨ q) b := by
  by_cases hp : p
  · rw [h.1 hp]
    exact ⟨fun _ => rfl, fun hpq => absurd (.inl hp) hpq⟩
  · rw [h.2 hp]
    exact hn.of (or_iff_right hp)

theorem map {f : α → β} (h : Fate kept p a) :
    Fate (kept >>= fun x => Pure.pure (f x)) p (f a) :=
  (h.bind (pure (f a))).of (or_iff_left id).symm

/-- Code goes on a condition of its own, before its parts are looked at. -/
theorem guarded {c : Bool} (h : Fate kept p a) :
    Fate (if c then none else kept) (c = true ∨ p) a := by
  cases c with
  | true => exact ⟨fun _ => rfl, fun hn => absurd (.inl rfl) hn⟩
  | false => exact h.of (or_iff_right Bool.false_ne_true)

theorem isNone_iff (h : Fate kept p a) : kept.isNone = true ↔ p := by
  by_cases hp : p
  · simp [h.1 hp, hp]
  · simp [h.2 hp, hp]

theorem eq_ite [Decidable p] (h : Fate kept p a) : kept = if p then none else some a := by
  split
  · exact h.1 ‹_›
  · exact h.2 ‹_›

end Fate

@[simp]
theorem deleted_expr {form : ExprForm} {type : Option TypeRef} {source : Option SourceContext} :
    Deleted dead (.expr ⟨form, type, source⟩) ↔
      (∃ callee arguments, form = .call callee arguments ∧ dead callee = true) ∨
        ∃ child ∈ requiredByExpr form, Deleted dead child := by
  rw [Deleted.iff]
  simp [IsDeadCall, Part.required]

@[simp]
theorem deleted_stmt {form : StmtForm} {source : Option SourceContext} :
    Deleted dead (.stmt ⟨form, source⟩) ↔ ∃ child ∈ requiredByStmt form, Deleted dead child := by
  rw [Deleted.iff]
  simp [Part.required]

section

variable (dead) [DecidablePred (Deleted dead)]

mutual

theorem keepExpr_fate : (e : Expr) →
    Fate (keepExpr dead e) (Deleted dead (.expr e)) (pruneExpr dead e)
  | ⟨form, type, source⟩ => keepForm_fate type source form
termination_by structural x => x

theorem keepForm_fate (type : Option TypeRef) (source : Option SourceContext) :
    (form : ExprForm) →
      Fate (keepForm dead type source form) (Deleted dead (.expr ⟨form, type, source⟩))
        ⟨pruneForm dead form, type, source⟩
  | .qualified qualifier _ => by
    rw [keepForm]
    exact (keepExpr_fate qualifier).map.of (by simp)
  | .binary _ left right => by
    rw [keepForm]
    exact ((keepExpr_fate left).bind (keepExpr_fate right).map).of (by simp)
  | .assignment statement => by
    rw [keepForm]
    exact (keepStmt_fate statement).map.of (by simp)
  | .cast operand _ => by
    rw [keepForm]
    exact (keepExpr_fate operand).map.of (by simp)
  | .indexer object operands => by
    rw [keepForm]
    exact ((keepExpr_fate object).bind (keepExprs_fate operands).map).of (by simp)
  | .constructArray _ size initializers => by
    rw [keepForm]
    exact ((keepExpr_fate size).bind (keepExprs_fate initializers).map).of (by simp)
  | .construct _ operands => by
    rw [keepForm]
    exact (keepExprs_fate operands).map.of (by simp)
  | .constructDelegate _ target _ => by
    rw [keepForm]
    exact (keepExpr_fate target).map.of (by simp)
  | .call callee arguments => by
    rw [keepForm]
    exact (Fate.guarded ((keepExpr_fate callee).bind (keepExprs_fate arguments).map)).of (by simp)
  | .member receiver _ => by
    rw [keepForm]
    exact (keepReceiver_fate receiver).map.of (by simp)
  | .addressOf operand => by
    rw [keepForm]
    exact (keepExpr_fate operand).map.of (by simp)
  | .block block => by
    -- a block that loses all its statements is still a block
    rw [keepForm, keepBlock_eq block]
    exact (Fate.pure _).of (by simp)
  | .literal _ | .identifier _ | .thisRef | .baseRef | .setterValue | .typeExpr _ | .typeOf _
  | .snippet | .temporary _ | .missing =>
    (Fate.pure _).of (by simp)
termination_by structural x => x

theorem keepReceiver_fate : (receiver : Option Expr) →
    Fate (keepReceiver dead receiver) (∃ e ∈ receiver, Deleted dead (.expr e))
      (pruneReceiver dead receiver)
  | none => (Fate.pure none).of (by simp)
  | some receiver => (keepExpr_fate receiver).map.of (by simp)
termination_by structural x => x

theorem keepExprs_fate : (es : List Expr) →
    Fate (keepExprs dead es) (∃ e ∈ es, Deleted dead (.expr e)) (pruneExprs dead es)
  | [] => (Fate.pure []).of (by simp)
  | e :: es => ((keepExpr_fate e).bind (keepExprs_fate es).map).of (by simp)
termination_by structural x => x

theorem keepOption_eq : (e : Option Expr) → keepOption dead e = pruneOption dead e
  | none => rfl
  | some e => (keepExpr_fate e).eq_ite
termination_by structural x => x

theorem keepStmt_fate : (s : Stmt) →
    Fate (keepStmt dead s) (Deleted dead (.stmt s)) (pruneStmt dead s)
  | ⟨form, source⟩ => keepStmtForm_fate source form
termination_by structural x => x

theorem keepStmtForm_fate (source : Option SourceContext) : (form : StmtForm) →
    Fate (keepStmtForm dead source form) (Deleted dead (.stmt ⟨form, source⟩))
      ⟨pruneStmtForm dead form, source⟩
  | .assignment target value => by
    rw [keepStmtForm]
    exact ((keepExpr_fate target).bind (keepExpr_fate value).map).of (by simp)
  | .attachEvent event handler | .removeEvent event handler => by
    rw [keepStmtForm]
    exact ((keepExpr_fate event).bind (keepExpr_fate handler).map).of (by simp)
  | .branch condition whenTrue whenFalse => by
    rw [keepStmtForm, keepBlock_eq whenTrue, keepBlock_eq whenFalse]
    exact (keepExpr_fate condition).map.of (by simp)
  | .expression expression => by
    rw [keepStmtForm]
    exact (keepExpr_fate expression).map.of (by simp)
  | .labeled _ statement => by
    rw [keepStmtForm, keepLabeled_eq statement]
    exact (Fate.pure _).of (by simp)
  | .loop init test increment body => by
    rw [keepStmtForm, keepStmts_eq init, keepOption_eq test, keepStmts_eq increment,
      keepBlock_eq body]
    exact (Fate.pure _).of (by simp)
  | .ret value | .raise value | .declaration _ _ value => by
    rw [keepStmtForm, keepOption_eq value]
    exact (Fate.pure _).of (by simp)
  | .protect body catchers last => by
    rw [keepStmtForm, keepBlock_eq body, keepCatchers_eq catchers, keepLast_eq last]
    exact (Fate.pure _).of (by simp)
  | .block block => by
    rw [keepStmtForm, keepBlock_eq block]
    exact (Fate.pure _).of (by simp)
  | .goto _ | .snippet => (Fate.pure _).of (by simp)
termination_by structural x => x

theorem keepLabeled_eq : (s : Option Stmt) → keepLabeled dead s = pruneLabeled dead s
  | none => rfl
  | some s => (keepStmt_fate s).eq_ite
termination_by structural x => x

theorem keepStmts_eq : (ss : List Stmt) → keepStmts dead ss = pruneStmts dead ss
  | [] => rfl
  | s :: ss => by
    rw [keepStmts, pruneStmts, (keepStmt_fate s).eq_ite, keepStmts_eq ss]
    split <;> rfl
termination_by structural x => x

theorem keepCatchers_eq : (cs : List Catcher) → keepCatchers dead cs = pruneCatchers dead cs
  | [] => rfl
  | ⟨_, _, block⟩ :: cs => by
    rw [keepCatchers, pruneCatchers, keepBlock_eq block, keepCatchers_eq cs]
termination_by structural x => x

theorem keepLast_eq : (b : Option Block) → keepLast dead b = pruneLast dead b
  | none => rfl
  | some block => by rw [keepLast, pruneLast, keepBlock_eq block]
termination_by structural x => x

theorem keepBlock_eq : (b : Block) → keepBlock dead b = pruneBlock dead b
  | ⟨statements, _⟩ => by rw [keepBlock, pruneBlock, keepStmts_eq statements]
termination_by structural x => x

end

end

theorem keepExpr_isNone (e : Expr) :
    (keepExpr dead e).isNone = true ↔ Deleted dead (.expr e) := by
  have := fun part => Classical.propDecidable (Deleted dead part)
  exact (keepExpr_fate dead e).isNone_iff

theorem keepStmt_isNone (s : Stmt) :
    (keepStmt dead s).isNone = true ↔ Deleted dead (.stmt s) := by
  have := fun part => Classical.propDecidable (Deleted dead part)
  exact (keepStmt_fate dead s).isNone_iff

/-- Whether code is deleted is seen by trying. -/
instance : DecidablePred (Deleted dead)
  | .expr e => decidable_of_iff _ (keepExpr_isNone e)
  | .stmt s => decidable_of_iff _ (keepStmt_isNone s)

end MiddleEnd.Conditional
