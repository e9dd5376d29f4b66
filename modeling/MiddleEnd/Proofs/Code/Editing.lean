/-
  What an editor does to code, as relations. An editor that deletes nothing takes a node in some
  state to an edited node and the state behind it. `EditRelation` holds one relation of this kind
  for each class of code. It is closed under an editor if it holds of every node as soon as it
  holds of the parts of the node, and then it holds of whatever the editor is run on
  (`Closed.editBlock`). So a law about an editor takes one step for each form, and the recursion
  through code is done here once.
-/
import MiddleEnd.Code.Editor

namespace MiddleEnd

namespace Edit

variable {σ α β : Type}

/-- The edit never deletes, and `post` holds of the state before, the result and the state
    behind. -/
def Yields (edit : Edit σ α) (post : σ → α → σ → Prop) : Prop :=
  ∀ s, ∃ a s', edit s = (some a, s') ∧ post s a s'

theorem bind_run {edit : Edit σ α} {s s' : σ} {a : α} (h : edit s = (some a, s'))
    (next : α → Edit σ β) : (edit >>= next) s = next a s' := by
  simp only [bind, OptionT.bind, OptionT.mk, StateT.bind]
  rw [h]

theorem bind_deleted {edit : Edit σ α} {s s' : σ} (h : edit s = (none, s'))
    (next : α → Edit σ β) : (edit >>= next) s = (none, s') := by
  simp only [bind, OptionT.bind, OptionT.mk, StateT.bind]
  rw [h]
  rfl

end Edit

theorem StateM.bind_run {σ α β : Type} (action : StateM σ α) (next : α → StateM σ β) (s : σ) :
    (action >>= next) s = next (action s).1 (action s).2 := rfl

/-- An assignment that is walked through. -/
theorem AssignmentParts.walk_yields {σ : Type} {p : AssignmentParts σ}
    {target value : σ → Expr → σ → Prop} {post : σ → Stmt → σ → Prop}
    (ht : p.editTarget.Yields target) (hv : p.editValue.Yields value)
    (both : ∀ s t s₁ v s', target s t s₁ → value s₁ v s' →
      post s ⟨.assignment t v, p.source⟩ s') : p.walk.Yields post := by
  intro s
  obtain ⟨t, s₁, et, pt⟩ := ht s
  obtain ⟨v, s', ev, pv⟩ := hv s₁
  refine ⟨_, s', ?_, both s t s₁ v s' pt pv⟩
  rw [AssignmentParts.walk, Edit.bind_run et, Edit.bind_run ev]
  rfl

/-- One relation for each class of code: a node, the state before it is edited, the edited node,
    and the state behind. -/
structure EditRelation (σ : Type) where
  expr : Expr → σ → Expr → σ → Prop
  /-- An expression whose parts are edited, before the override for expressions sees it. -/
  walked : Expr → σ → Expr → σ → Prop
  option : Option Expr → σ → Option Expr → σ → Prop
  exprs : List Expr → σ → List Expr → σ → Prop
  stmt : Stmt → σ → Stmt → σ → Prop
  labeled : Option Stmt → σ → Option Stmt → σ → Prop
  stmts : List Stmt → σ → List Stmt → σ → Prop
  catchers : List Catcher → σ → List Catcher → σ → Prop
  last : Option Block → σ → Option Block → σ → Prop
  block : Block → σ → Block → σ → Prop

/-- Expressions without parts. -/
def ExprForm.isLeaf : ExprForm → Bool
  | .literal _ | .identifier _ | .thisRef | .baseRef | .setterValue | .typeExpr _ | .typeOf _
  | .snippet | .temporary _ | .missing => true
  | _ => false

namespace EditRelation

variable {σ : Type}

/-- The relation holds of a node if it holds of the parts of the node: one condition for each form
    that is walked through, and one for each override of the editor. -/
structure Closed (R : EditRelation σ) (editor : Editor σ) : Prop where
  expr : ∀ {e : Expr} {walk : Edit σ Expr}, walk.Yields (R.walked e) →
    (editor.expr e walk).Yields (R.expr e)
  member : ∀ {receiver : Option Expr} {ref : MemberRef} {type : Option TypeRef}
    {source : Option SourceContext} {edit : Edit σ (Option Expr)},
    edit.Yields (R.option receiver) →
    (editor.member ⟨.member receiver ref, type, source⟩ receiver ref edit).Yields
      (R.walked ⟨.member receiver ref, type, source⟩)
  call : ∀ {callee : Expr} {arguments : List Expr} {type : Option TypeRef}
    {source : Option SourceContext} {walk : Edit σ Expr},
    (walk.Yields fun s e s' => ∃ callee' s₁ arguments', R.expr callee s callee' s₁ ∧
      R.exprs arguments s₁ arguments' s' ∧ e = ⟨.call callee' arguments', type, source⟩) →
    (editor.call ⟨.call callee arguments, type, source⟩ callee arguments walk).Yields
      (R.walked ⟨.call callee arguments, type, source⟩)
  assignMember : ∀ {receiver : Option Expr} {ref : MemberRef} {type : Option TypeRef}
    {targetSource source : Option SourceContext} {value : Expr}
    {editTarget editValue : Edit σ Expr} {editReceiver : Edit σ (Option Expr)},
    editTarget.Yields (R.expr ⟨.member receiver ref, type, targetSource⟩) →
    editValue.Yields (R.expr value) → editReceiver.Yields (R.option receiver) →
    (editor.assignment ⟨⟨.member receiver ref, type, targetSource⟩, value, source, editTarget,
      editValue, editReceiver⟩).Yields
      (R.stmt ⟨.assignment ⟨.member receiver ref, type, targetSource⟩ value, source⟩)
  assign : ∀ {target value : Expr} {source : Option SourceContext}
    {editTarget editValue : Edit σ Expr}, (∀ receiver ref, target.form ≠ .member receiver ref) →
    editTarget.Yields (R.expr target) → editValue.Yields (R.expr value) →
    (editor.assignment ⟨target, value, source, editTarget, editValue, pure none⟩).Yields
      (R.stmt ⟨.assignment target value, source⟩)
  leaf : ∀ {form type source s}, form.isLeaf = true →
    R.walked ⟨form, type, source⟩ s ⟨form, type, source⟩ s
  qualified : ∀ {qualifier name type source s qualifier' s'}, R.expr qualifier s qualifier' s' →
    R.walked ⟨.qualified qualifier name, type, source⟩ s
      ⟨.qualified qualifier' name, type, source⟩ s'
  binary : ∀ {op left right type source s left' s₁ right' s'}, R.expr left s left' s₁ →
    R.expr right s₁ right' s' →
    R.walked ⟨.binary op left right, type, source⟩ s ⟨.binary op left' right', type, source⟩ s'
  assignment : ∀ {statement type source s statement' s'}, R.stmt statement s statement' s' →
    R.walked ⟨.assignment statement, type, source⟩ s ⟨.assignment statement', type, source⟩ s'
  cast : ∀ {operand target type source s operand' s'}, R.expr operand s operand' s' →
    R.walked ⟨.cast operand target, type, source⟩ s ⟨.cast operand' target, type, source⟩ s'
  indexer : ∀ {object operands type source s object' s₁ operands' s'}, R.expr object s object' s₁ →
    R.exprs operands s₁ operands' s' →
    R.walked ⟨.indexer object operands, type, source⟩ s
      ⟨.indexer object' operands', type, source⟩ s'
  constructArray : ∀ {element size initializers type source s size' s₁ initializers' s'},
    R.expr size s size' s₁ → R.exprs initializers s₁ initializers' s' →
    R.walked ⟨.constructArray element size initializers, type, source⟩ s
      ⟨.constructArray element size' initializers', type, source⟩ s'
  construct : ∀ {constructed operands type source s operands' s'},
    R.exprs operands s operands' s' →
    R.walked ⟨.construct constructed operands, type, source⟩ s
      ⟨.construct constructed operands', type, source⟩ s'
  constructDelegate : ∀ {delegate target method type source s target' s'},
    R.expr target s target' s' →
    R.walked ⟨.constructDelegate delegate target method, type, source⟩ s
      ⟨.constructDelegate delegate target' method, type, source⟩ s'
  addressOf : ∀ {operand type source s operand' s'}, R.expr operand s operand' s' →
    R.walked ⟨.addressOf operand, type, source⟩ s ⟨.addressOf operand', type, source⟩ s'
  blockExpr : ∀ {block type source s block' s'}, R.block block s block' s' →
    R.walked ⟨.block block, type, source⟩ s ⟨.block block', type, source⟩ s'
  optionNone : ∀ {s}, R.option none s none s
  optionSome : ∀ {e s e' s'}, R.expr e s e' s' → R.option (some e) s (some e') s'
  exprsNil : ∀ {s}, R.exprs [] s [] s
  exprsCons : ∀ {e es s e' s₁ es' s'}, R.expr e s e' s₁ → R.exprs es s₁ es' s' →
    R.exprs (e :: es) s (e' :: es') s'
  attachEvent : ∀ {event handler source s event' s₁ handler' s'}, R.expr event s event' s₁ →
    R.expr handler s₁ handler' s' →
    R.stmt ⟨.attachEvent event handler, source⟩ s ⟨.attachEvent event' handler', source⟩ s'
  removeEvent : ∀ {event handler source s event' s₁ handler' s'}, R.expr event s event' s₁ →
    R.expr handler s₁ handler' s' →
    R.stmt ⟨.removeEvent event handler, source⟩ s ⟨.removeEvent event' handler', source⟩ s'
  branch : ∀ {condition whenTrue whenFalse source s condition' s₁ whenTrue' s₂ whenFalse' s'},
    R.expr condition s condition' s₁ → R.block whenTrue s₁ whenTrue' s₂ →
    R.block whenFalse s₂ whenFalse' s' →
    R.stmt ⟨.branch condition whenTrue whenFalse, source⟩ s
      ⟨.branch condition' whenTrue' whenFalse', source⟩ s'
  expression : ∀ {expression source s expression' s'}, R.expr expression s expression' s' →
    R.stmt ⟨.expression expression, source⟩ s ⟨.expression expression', source⟩ s'
  labeledStmt : ∀ {label statement source s statement' s'}, R.labeled statement s statement' s' →
    R.stmt ⟨.labeled label statement, source⟩ s ⟨.labeled label statement', source⟩ s'
  loop : ∀ {init test increment body source s init' s₁ test' s₂ increment' s₃ body' s'},
    R.stmts init s init' s₁ → R.option test s₁ test' s₂ → R.stmts increment s₂ increment' s₃ →
    R.block body s₃ body' s' →
    R.stmt ⟨.loop init test increment body, source⟩ s
      ⟨.loop init' test' increment' body', source⟩ s'
  ret : ∀ {value source s value' s'}, R.option value s value' s' →
    R.stmt ⟨.ret value, source⟩ s ⟨.ret value', source⟩ s'
  raise : ∀ {value source s value' s'}, R.option value s value' s' →
    R.stmt ⟨.raise value, source⟩ s ⟨.raise value', source⟩ s'
  protect : ∀ {body catchers last source s body' s₁ catchers' s₂ last' s'},
    R.block body s body' s₁ → R.catchers catchers s₁ catchers' s₂ → R.last last s₂ last' s' →
    R.stmt ⟨.protect body catchers last, source⟩ s ⟨.protect body' catchers' last', source⟩ s'
  declaration : ∀ {name type init source s init' s'}, R.option init s init' s' →
    R.stmt ⟨.declaration name type init, source⟩ s ⟨.declaration name type init', source⟩ s'
  blockStmt : ∀ {block source s block' s'}, R.block block s block' s' →
    R.stmt ⟨.block block, source⟩ s ⟨.block block', source⟩ s'
  goto : ∀ {label source s}, R.stmt ⟨.goto label, source⟩ s ⟨.goto label, source⟩ s
  snippet : ∀ {source s}, R.stmt ⟨.snippet, source⟩ s ⟨.snippet, source⟩ s
  labeledNone : ∀ {s}, R.labeled none s none s
  labeledSome : ∀ {st s st' s'}, R.stmt st s st' s' → R.labeled (some st) s (some st') s'
  stmtsNil : ∀ {s}, R.stmts [] s [] s
  stmtsCons : ∀ {st ss s st' s₁ ss' s'}, R.stmt st s st' s₁ → R.stmts ss s₁ ss' s' →
    R.stmts (st :: ss) s (st' :: ss') s'
  catchersNil : ∀ {s}, R.catchers [] s [] s
  catchersCons : ∀ {type name block cs s block' s₁ cs' s'}, R.block block s block' s₁ →
    R.catchers cs s₁ cs' s' →
    R.catchers (⟨type, name, block⟩ :: cs) s (⟨type, name, block'⟩ :: cs') s'
  lastNone : ∀ {s}, R.last none s none s
  lastSome : ∀ {block s block' s'}, R.block block s block' s' →
    R.last (some block) s (some block') s'
  block : ∀ {statements source s statements' s'}, R.stmts statements s statements' s' →
    R.block ⟨statements, source⟩ s ⟨statements', source⟩ s'

namespace Closed

variable {R : EditRelation σ} {editor : Editor σ} (h : R.Closed editor)

include h

mutual

theorem editExpr : (e : Expr) → (editor.editExpr e).Yields (R.expr e)
  | ⟨form, type, source⟩ => by
      rw [Editor.editExpr]
      exact h.expr (walkExpr type source form)

theorem walkExpr (type : Option TypeRef) (source : Option SourceContext) : (form : ExprForm) →
    (editor.walkExpr type source form).Yields (R.walked ⟨form, type, source⟩)
  | .member receiver ref => by
      rw [Editor.walkExpr]
      exact h.member (editReceiver receiver)
  | .call callee arguments => by
      rw [Editor.walkExpr]
      refine h.call fun s => ?_
      obtain ⟨callee', s₁, hc, rc⟩ := editExpr callee s
      obtain ⟨arguments', s', ha, ra⟩ := editExprs arguments s₁
      refine ⟨_, s', ?_, callee', s₁, arguments', rc, ra, rfl⟩
      rw [Edit.bind_run hc, Edit.bind_run ha]
      rfl
  | .qualified qualifier name => fun s => by
      obtain ⟨qualifier', s', hq, rq⟩ := editExpr qualifier s
      refine ⟨_, s', ?_, h.qualified rq⟩
      rw [Editor.walkExpr, Edit.bind_run hq]
      rfl
  | .binary op left right => fun s => by
      obtain ⟨left', s₁, hl, rl⟩ := editExpr left s
      obtain ⟨right', s', hr, rr⟩ := editExpr right s₁
      refine ⟨_, s', ?_, h.binary rl rr⟩
      rw [Editor.walkExpr, Edit.bind_run hl, Edit.bind_run hr]
      rfl
  | .assignment statement => fun s => by
      obtain ⟨statement', s', hs, rs⟩ := editStmt statement s
      refine ⟨_, s', ?_, h.assignment rs⟩
      rw [Editor.walkExpr, Edit.bind_run hs]
      rfl
  | .cast operand target => fun s => by
      obtain ⟨operand', s', ho, ro⟩ := editExpr operand s
      refine ⟨_, s', ?_, h.cast ro⟩
      rw [Editor.walkExpr, Edit.bind_run ho]
      rfl
  | .indexer object operands => fun s => by
      obtain ⟨object', s₁, ho, ro⟩ := editExpr object s
      obtain ⟨operands', s', hs, rs⟩ := editExprs operands s₁
      refine ⟨_, s', ?_, h.indexer ro rs⟩
      rw [Editor.walkExpr, Edit.bind_run ho, Edit.bind_run hs]
      rfl
  | .constructArray element size initializers => fun s => by
      obtain ⟨size', s₁, hz, rz⟩ := editExpr size s
      obtain ⟨initializers', s', hi, ri⟩ := editExprs initializers s₁
      refine ⟨_, s', ?_, h.constructArray rz ri⟩
      rw [Editor.walkExpr, Edit.bind_run hz, Edit.bind_run hi]
      rfl
  | .construct constructed operands => fun s => by
      obtain ⟨operands', s', ho, ro⟩ := editExprs operands s
      refine ⟨_, s', ?_, h.construct ro⟩
      rw [Editor.walkExpr, Edit.bind_run ho]
      rfl
  | .constructDelegate delegate target method => fun s => by
      obtain ⟨target', s', ht, rt⟩ := editExpr target s
      refine ⟨_, s', ?_, h.constructDelegate rt⟩
      rw [Editor.walkExpr, Edit.bind_run ht]
      rfl
  | .addressOf operand => fun s => by
      obtain ⟨operand', s', ho, ro⟩ := editExpr operand s
      refine ⟨_, s', ?_, h.addressOf ro⟩
      rw [Editor.walkExpr, Edit.bind_run ho]
      rfl
  | .block block => fun s =>
      ⟨_, _, by rw [Editor.walkExpr]; rfl, h.blockExpr (editBlock block s)⟩
  | .literal _ => fun s => ⟨_, s, by rw [Editor.walkExpr]; rfl, h.leaf rfl⟩
  | .identifier _ => fun s => ⟨_, s, by rw [Editor.walkExpr]; rfl, h.leaf rfl⟩
  | .thisRef => fun s => ⟨_, s, by rw [Editor.walkExpr]; rfl, h.leaf rfl⟩
  | .baseRef => fun s => ⟨_, s, by rw [Editor.walkExpr]; rfl, h.leaf rfl⟩
  | .setterValue => fun s => ⟨_, s, by rw [Editor.walkExpr]; rfl, h.leaf rfl⟩
  | .typeExpr _ => fun s => ⟨_, s, by rw [Editor.walkExpr]; rfl, h.leaf rfl⟩
  | .typeOf _ => fun s => ⟨_, s, by rw [Editor.walkExpr]; rfl, h.leaf rfl⟩
  | .snippet => fun s => ⟨_, s, by rw [Editor.walkExpr]; rfl, h.leaf rfl⟩
  | .temporary _ => fun s => ⟨_, s, by rw [Editor.walkExpr]; rfl, h.leaf rfl⟩
  | .missing => fun s => ⟨_, s, by rw [Editor.walkExpr]; rfl, h.leaf rfl⟩

theorem editReceiver : (receiver : Option Expr) →
    (editor.editReceiver receiver).Yields (R.option receiver)
  | none => fun s => ⟨none, s, by rw [Editor.editReceiver]; rfl, h.optionNone⟩
  | some receiver => fun s => by
      obtain ⟨receiver', s', hr, rr⟩ := editExpr receiver s
      refine ⟨_, s', ?_, h.optionSome rr⟩
      rw [Editor.editReceiver, Edit.bind_run hr]
      rfl

theorem editExprs : (es : List Expr) → (editor.editExprs es).Yields (R.exprs es)
  | [] => fun s => ⟨[], s, by rw [Editor.editExprs]; rfl, h.exprsNil⟩
  | e :: es => fun s => by
      obtain ⟨e', s₁, he, re⟩ := editExpr e s
      obtain ⟨es', s', hs, rs⟩ := editExprs es s₁
      refine ⟨_, s', ?_, h.exprsCons re rs⟩
      rw [Editor.editExprs, Edit.bind_run he, Edit.bind_run hs]
      rfl

theorem editOption : (e : Option Expr) → (s : σ) →
    R.option e s (editor.editOption e s).1 (editor.editOption e s).2
  | none, s => by rw [Editor.editOption]; exact h.optionNone
  | some e, s => by
      obtain ⟨e', s', he, re⟩ := editExpr e s
      rw [Editor.editOption, show (editor.editExpr e).run s = (some e', s') from he]
      exact h.optionSome re

theorem editStmt : (st : Stmt) → (editor.editStmt st).Yields (R.stmt st)
  | ⟨.assignment target value, source⟩ => by
      have hv := editExpr value
      have ht := editExpr target
      rcases target with ⟨form, type, targetSource⟩
      cases form
      case member receiver ref =>
        rw [Editor.editStmt]
        exact h.assignMember ht hv (editReceiver receiver)
      all_goals
        rw [Editor.editStmt]
        · exact h.assign (by simp) ht hv
        · simp
  | ⟨.attachEvent event handler, source⟩ => fun s => by
      obtain ⟨event', s₁, he, re⟩ := editExpr event s
      obtain ⟨handler', s', hh, rh⟩ := editExpr handler s₁
      refine ⟨_, s', ?_, h.attachEvent re rh⟩
      rw [Editor.editStmt, Edit.bind_run he, Edit.bind_run hh]
      rfl
  | ⟨.removeEvent event handler, source⟩ => fun s => by
      obtain ⟨event', s₁, he, re⟩ := editExpr event s
      obtain ⟨handler', s', hh, rh⟩ := editExpr handler s₁
      refine ⟨_, s', ?_, h.removeEvent re rh⟩
      rw [Editor.editStmt, Edit.bind_run he, Edit.bind_run hh]
      rfl
  | ⟨.branch condition whenTrue whenFalse, source⟩ => fun s => by
      obtain ⟨condition', s₁, hc, rc⟩ := editExpr condition s
      refine ⟨_, _, ?_, h.branch rc (editBlock whenTrue s₁) (editBlock whenFalse _)⟩
      rw [Editor.editStmt, Edit.bind_run hc]
      rfl
  | ⟨.expression expression, source⟩ => fun s => by
      obtain ⟨expression', s', he, re⟩ := editExpr expression s
      refine ⟨_, s', ?_, h.expression re⟩
      rw [Editor.editStmt, Edit.bind_run he]
      rfl
  | ⟨.labeled label statement, source⟩ => fun s =>
      ⟨_, _, by rw [Editor.editStmt]; rfl, h.labeledStmt (editLabeled statement s)⟩
  | ⟨.loop init test increment body, source⟩ => fun s =>
      ⟨_, _, by rw [Editor.editStmt]; rfl, h.loop (editStmts init s) (editOption test _)
        (editStmts increment _) (editBlock body _)⟩
  | ⟨.ret value, source⟩ => fun s =>
      ⟨_, _, by rw [Editor.editStmt]; rfl, h.ret (editOption value s)⟩
  | ⟨.raise value, source⟩ => fun s =>
      ⟨_, _, by rw [Editor.editStmt]; rfl, h.raise (editOption value s)⟩
  | ⟨.protect body catchers last, source⟩ => fun s =>
      ⟨_, _, by rw [Editor.editStmt]; rfl, h.protect (editBlock body s)
        (editCatchers catchers _) (editLast last _)⟩
  | ⟨.declaration name type init, source⟩ => fun s =>
      ⟨_, _, by rw [Editor.editStmt]; rfl, h.declaration (editOption init s)⟩
  | ⟨.block block, source⟩ => fun s =>
      ⟨_, _, by rw [Editor.editStmt]; rfl, h.blockStmt (editBlock block s)⟩
  | ⟨.goto label, source⟩ => fun s => ⟨_, s, by rw [Editor.editStmt]; rfl, h.goto⟩
  | ⟨.snippet, source⟩ => fun s => ⟨_, s, by rw [Editor.editStmt]; rfl, h.snippet⟩

theorem editStmts : (ss : List Stmt) → (s : σ) →
    R.stmts ss s (editor.editStmts ss s).1 (editor.editStmts ss s).2
  | [], s => by rw [Editor.editStmts]; exact h.stmtsNil
  | st :: ss, s => by
      obtain ⟨st', s₁, hs, rs⟩ := editStmt st s
      have run : editor.editStmts (st :: ss) s =
          (st' :: (editor.editStmts ss s₁).1, (editor.editStmts ss s₁).2) := by
        rw [Editor.editStmts, StateM.bind_run,
        show (editor.editStmt st).run s = (some st', s₁) from hs]
        rfl
      rw [run]
      exact h.stmtsCons rs (editStmts ss s₁)

theorem editLabeled : (st : Option Stmt) → (s : σ) →
    R.labeled st s (editor.editLabeled st s).1 (editor.editLabeled st s).2
  | none, s => by rw [Editor.editLabeled]; exact h.labeledNone
  | some st, s => by
      obtain ⟨st', s', hs, rs⟩ := editStmt st s
      rw [Editor.editLabeled, show (editor.editStmt st).run s = (some st', s') from hs]
      exact h.labeledSome rs

theorem editCatchers : (cs : List Catcher) → (s : σ) →
    R.catchers cs s (editor.editCatchers cs s).1 (editor.editCatchers cs s).2
  | [], s => by rw [Editor.editCatchers]; exact h.catchersNil
  | ⟨type, name, block⟩ :: cs, s => by
      rw [Editor.editCatchers]
      exact h.catchersCons (editBlock block s) (editCatchers cs _)

theorem editLast : (block : Option Block) → (s : σ) →
    R.last block s (editor.editLast block s).1 (editor.editLast block s).2
  | none, s => by rw [Editor.editLast]; exact h.lastNone
  | some block, s => by
      rw [Editor.editLast]
      exact h.lastSome (editBlock block s)

theorem editBlock : (block : Block) → (s : σ) →
    R.block block s (editor.editBlock block s).1 (editor.editBlock block s).2
  | ⟨statements, source⟩, s => by
      rw [Editor.editBlock]
      exact h.block (editStmts statements s)

end

end Closed

end EditRelation

end MiddleEnd
