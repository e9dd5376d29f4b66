/-
  Walks over code with and without its sources. An action commutes with views of its results and
  states if it can be run on the view of a state just as well as on the state. An editor whose
  overrides commute with the loss of sources commutes with it on all code (`Commutes.editBlock`),
  and so does a visitor.
-/
import MiddleEnd.Code.Editor
import MiddleEnd.Code.Visitor
import MiddleEnd.Proofs.Code.Sourceless

namespace MiddleEnd

variable {σ τ α β γ δ : Type}

/-! ## Actions -/

namespace StateM

/-- Run on the view of a state, `image` gives the views of what `action` gives. -/
def Commutes (f : α → β) (g : σ → τ) (action : StateM σ α) (image : StateM τ β) : Prop :=
  ∀ s, image (g s) = (f (action s).1, g (action s).2)

namespace Commutes

variable {f : α → β} {h : γ → δ} {g : σ → τ}

theorem pure {a : α} {b : β} (hf : f a = b) : Commutes f g (Pure.pure a) (Pure.pure b) :=
  fun s => congrArg (·, g s) hf.symm

theorem bind {action : StateM σ α} {image : StateM τ β} {next : α → StateM σ γ}
    {next' : β → StateM τ δ} (ha : Commutes f g action image)
    (hn : ∀ a, Commutes h g (next a) (next' (f a))) :
    Commutes h g (action >>= next) (image >>= next') := by
  intro s
  have himage : (image >>= next') (g s) = next' (image (g s)).1 (image (g s)).2 := rfl
  rw [himage, ha s]
  exact hn (action s).1 (action s).2

theorem get {next : σ → StateM σ α} {next' : τ → StateM τ β}
    (hn : ∀ s, Commutes f g (next s) (next' (g s))) :
    Commutes f g (MonadState.get >>= next) (MonadState.get >>= next') :=
  fun s => hn s s

theorem update {change : σ → σ} {change' : τ → τ} (hc : ∀ s, g (change s) = change' (g s)) :
    Commutes id g (modify change) (modify change') :=
  fun s => congrArg ((), ·) (hc s).symm

end Commutes

end StateM

/-- An edit that may delete commutes if it deletes the same. -/
def Edit.Commutes (f : α → β) (g : σ → τ) (edit : Edit σ α) (image : Edit τ β) : Prop :=
  StateM.Commutes (Option.map f) g edit.run image.run

namespace Edit.Commutes

variable {f : α → β} {h : γ → δ} {g : σ → τ}

theorem pure {a : α} {b : β} (hf : f a = b) : Commutes f g (Pure.pure a) (Pure.pure b) :=
  StateM.Commutes.pure (congrArg some hf)

theorem bind {edit : Edit σ α} {image : Edit τ β} {next : α → Edit σ γ} {next' : β → Edit τ δ}
    (he : Commutes f g edit image) (hn : ∀ a, Commutes h g (next a) (next' (f a))) :
    Commutes h g (edit >>= next) (image >>= next') := by
  show StateM.Commutes (Option.map h) g (OptionT.bind edit next) (OptionT.bind image next')
  unfold OptionT.bind OptionT.mk
  refine StateM.Commutes.bind he fun a => ?_
  cases a with
  | none => exact StateM.Commutes.pure rfl
  | some a => exact hn a

theorem always {action : StateM σ α} {image : StateM τ β}
    (ha : StateM.Commutes f g action image) :
    Commutes f g (Edit.always action) (Edit.always image) :=
  StateM.Commutes.bind ha fun _ => StateM.Commutes.pure rfl

theorem delete : Commutes f g (Edit.delete : Edit σ α) Edit.delete := StateM.Commutes.pure rfl

end Edit.Commutes

/-! ## Editors -/

/-- The overrides of an editor commute with the loss of sources, if that which they walk on with
    does. -/
structure Editor.Commutes (g : σ → τ) (editor : Editor σ) (image : Editor τ) : Prop where
  expr : ∀ {e walk walk'}, Edit.Commutes Expr.sourceless g walk walk' →
    Edit.Commutes Expr.sourceless g (editor.expr e walk) (image.expr e.sourceless walk')
  member : ∀ {receiver ref type source edit edit'}, Edit.Commutes exprSourceless g edit edit' →
    Edit.Commutes Expr.sourceless g
      (editor.member ⟨.member receiver ref, type, source⟩ receiver ref edit)
      (image.member ⟨.member (exprSourceless receiver) ref, type, none⟩ (exprSourceless receiver)
        ref edit')
  call : ∀ {callee arguments type source walk walk'},
    Edit.Commutes Expr.sourceless g walk walk' →
    Edit.Commutes Expr.sourceless g
      (editor.call ⟨.call callee arguments, type, source⟩ callee arguments walk)
      (image.call ⟨.call callee.sourceless (exprsSourceless arguments), type, none⟩
        callee.sourceless (exprsSourceless arguments) walk')
  assignment : ∀ {target value source editTarget editTarget' editValue editValue' editReceiver
      editReceiver'}, Edit.Commutes Expr.sourceless g editTarget editTarget' →
    Edit.Commutes Expr.sourceless g editValue editValue' →
    Edit.Commutes exprSourceless g editReceiver editReceiver' →
    Edit.Commutes Stmt.sourceless g
      (editor.assignment ⟨target, value, source, editTarget, editValue, editReceiver⟩)
      (image.assignment ⟨target.sourceless, value.sourceless, none, editTarget', editValue',
        editReceiver'⟩)

section

variable {g : σ → τ}

/-- A member whose receiver is edited, and nothing else. -/
theorem Edit.Commutes.keepMember {receiver : Option Expr} {ref : MemberRef}
    {type : Option TypeRef} {source : Option SourceContext} {edit : Edit σ (Option Expr)}
    {edit' : Edit τ (Option Expr)} (he : Edit.Commutes exprSourceless g edit edit') :
    Edit.Commutes Expr.sourceless g
      (do return { (⟨.member receiver ref, type, source⟩ : Expr) with
        form := .member (← edit) ref })
      (do return { (⟨.member (exprSourceless receiver) ref, type, none⟩ : Expr) with
            form := .member (← edit') ref }) :=
  .bind he fun _ => .pure rfl

theorem AssignmentParts.walk_commutes {target value : Expr} {source : Option SourceContext}
    {editTarget editValue : Edit σ Expr} {editTarget' editValue' : Edit τ Expr}
    {editReceiver : Edit σ (Option Expr)} {editReceiver' : Edit τ (Option Expr)}
    (ht : Edit.Commutes Expr.sourceless g editTarget editTarget')
    (hv : Edit.Commutes Expr.sourceless g editValue editValue') :
    Edit.Commutes Stmt.sourceless g
      (AssignmentParts.walk ⟨target, value, source, editTarget, editValue, editReceiver⟩)
      (AssignmentParts.walk ⟨target.sourceless, value.sourceless, none, editTarget', editValue',
        editReceiver'⟩) :=
  .bind ht fun _ => .bind hv fun _ => .pure rfl

end

namespace Editor.Commutes

variable {g : σ → τ} {editor : Editor σ} {image : Editor τ}

mutual

theorem editExpr (h : Editor.Commutes g editor image) : (e : Expr) →
    Edit.Commutes Expr.sourceless g (editor.editExpr e) (image.editExpr e.sourceless)
  | ⟨form, type, source⟩ => by
      rw [Expr.sourceless, Editor.editExpr, Editor.editExpr]
      exact h.expr (walkExpr h type source form)

theorem walkExpr (h : Editor.Commutes g editor image) (type : Option TypeRef)
    (source : Option SourceContext) : (form : ExprForm) →
    Edit.Commutes Expr.sourceless g (editor.walkExpr type source form)
      (image.walkExpr type (form.ownSource source) form.sourceless)
  | .member receiver ref => by
      rw [ExprForm.sourceless, Editor.walkExpr, Editor.walkExpr]
      exact h.member (editReceiver h receiver)
  | .call callee arguments => by
      rw [ExprForm.sourceless, Editor.walkExpr, Editor.walkExpr]
      exact h.call
        (.bind (editExpr h callee) fun _ => .bind (editExprs h arguments) fun _ => .pure rfl)
  | .qualified qualifier name => by
      rw [ExprForm.sourceless, Editor.walkExpr, Editor.walkExpr]
      exact .bind (editExpr h qualifier) fun _ => .pure rfl
  | .binary op left right => by
      rw [ExprForm.sourceless, Editor.walkExpr, Editor.walkExpr]
      exact .bind (editExpr h left) fun _ => .bind (editExpr h right) fun _ => .pure rfl
  | .assignment statement => by
      rw [ExprForm.sourceless, Editor.walkExpr, Editor.walkExpr]
      exact .bind (editStmt h statement) fun _ => .pure rfl
  | .cast operand target => by
      rw [ExprForm.sourceless, Editor.walkExpr, Editor.walkExpr]
      exact .bind (editExpr h operand) fun _ => .pure rfl
  | .indexer object operands => by
      rw [ExprForm.sourceless, Editor.walkExpr, Editor.walkExpr]
      exact .bind (editExpr h object) fun _ => .bind (editExprs h operands) fun _ => .pure rfl
  | .constructArray element size initializers => by
      rw [ExprForm.sourceless, Editor.walkExpr, Editor.walkExpr]
      exact .bind (editExpr h size) fun _ => .bind (editExprs h initializers) fun _ => .pure rfl
  | .construct constructed operands => by
      rw [ExprForm.sourceless, Editor.walkExpr, Editor.walkExpr]
      exact .bind (editExprs h operands) fun _ => .pure rfl
  | .constructDelegate delegate target method => by
      rw [ExprForm.sourceless, Editor.walkExpr, Editor.walkExpr]
      exact .bind (editExpr h target) fun _ => .pure rfl
  | .addressOf operand => by
      rw [ExprForm.sourceless, Editor.walkExpr, Editor.walkExpr]
      exact .bind (editExpr h operand) fun _ => .pure rfl
  | .block block => by
      rw [ExprForm.sourceless, Editor.walkExpr, Editor.walkExpr]
      exact .bind (.always (editBlock h block)) fun _ => .pure rfl
  | .literal _ | .identifier _ | .thisRef | .baseRef | .setterValue | .typeExpr _ | .typeOf _
  | .snippet | .temporary _ | .missing => by
      rw [ExprForm.sourceless, Editor.walkExpr, Editor.walkExpr]
      exact .pure rfl

theorem editReceiver (h : Editor.Commutes g editor image) : (receiver : Option Expr) →
    Edit.Commutes exprSourceless g (editor.editReceiver receiver)
      (image.editReceiver (exprSourceless receiver))
  | none => by
      rw [exprSourceless, Editor.editReceiver, Editor.editReceiver]
      exact .pure rfl
  | some receiver => by
      rw [exprSourceless, Editor.editReceiver, Editor.editReceiver]
      exact .bind (editExpr h receiver) fun _ => .pure rfl

theorem editExprs (h : Editor.Commutes g editor image) : (es : List Expr) →
    Edit.Commutes exprsSourceless g (editor.editExprs es) (image.editExprs (exprsSourceless es))
  | [] => by
      rw [exprsSourceless, Editor.editExprs, Editor.editExprs]
      exact .pure rfl
  | e :: es => by
      rw [exprsSourceless, Editor.editExprs, Editor.editExprs]
      exact .bind (editExpr h e) fun _ => .bind (editExprs h es) fun _ => .pure rfl

theorem editOption (h : Editor.Commutes g editor image) : (e : Option Expr) →
    StateM.Commutes exprSourceless g (editor.editOption e) (image.editOption (exprSourceless e))
  | none => by
      rw [exprSourceless, Editor.editOption, Editor.editOption]
      exact .pure rfl
  | some e => by
      rw [exprSourceless, Editor.editOption, Editor.editOption, funext exprSourceless_eq_map]
      exact editExpr h e

theorem editStmt (h : Editor.Commutes g editor image) : (s : Stmt) →
    Edit.Commutes Stmt.sourceless g (editor.editStmt s) (image.editStmt s.sourceless)
  | ⟨.assignment target value, source⟩ => by
      have hv := editExpr h value
      have ht := editExpr h target
      rcases target with ⟨form, type, targetSource⟩
      rw [Stmt.sourceless, StmtForm.sourceless]
      cases form
      case member receiver ref =>
        rw [Expr.sourceless, ExprForm.sourceless, Editor.editStmt, Editor.editStmt]
        exact h.assignment ht hv (editReceiver h receiver)
      all_goals
        rw [Expr.sourceless, ExprForm.sourceless, Editor.editStmt, Editor.editStmt]
        · exact h.assignment ht hv (.pure rfl)
        · simp
        · simp
  | ⟨.attachEvent event handler, source⟩ => by
      rw [Stmt.sourceless, StmtForm.sourceless, Editor.editStmt, Editor.editStmt]
      exact .bind (editExpr h event) fun _ => .bind (editExpr h handler) fun _ => .pure rfl
  | ⟨.removeEvent event handler, source⟩ => by
      rw [Stmt.sourceless, StmtForm.sourceless, Editor.editStmt, Editor.editStmt]
      exact .bind (editExpr h event) fun _ => .bind (editExpr h handler) fun _ => .pure rfl
  | ⟨.branch condition whenTrue whenFalse, source⟩ => by
      rw [Stmt.sourceless, StmtForm.sourceless, Editor.editStmt, Editor.editStmt]
      exact .bind (editExpr h condition) fun _ => .bind (.always (editBlock h whenTrue)) fun _ =>
        .bind (.always (editBlock h whenFalse)) fun _ => .pure rfl
  | ⟨.expression expression, source⟩ => by
      rw [Stmt.sourceless, StmtForm.sourceless, Editor.editStmt, Editor.editStmt]
      exact .bind (editExpr h expression) fun _ => .pure rfl
  | ⟨.labeled label statement, source⟩ => by
      rw [Stmt.sourceless, StmtForm.sourceless, Editor.editStmt, Editor.editStmt]
      exact .bind (.always (editLabeled h statement)) fun _ => .pure rfl
  | ⟨.loop init test increment body, source⟩ => by
      rw [Stmt.sourceless, StmtForm.sourceless, Editor.editStmt, Editor.editStmt]
      exact .bind (.always (editStmts h init)) fun _ => .bind (.always (editOption h test)) fun _ =>
        .bind (.always (editStmts h increment)) fun _ => .bind (.always (editBlock h body)) fun _ =>
          .pure rfl
  | ⟨.ret value, source⟩ => by
      rw [Stmt.sourceless, StmtForm.sourceless, Editor.editStmt, Editor.editStmt]
      exact .bind (.always (editOption h value)) fun _ => .pure rfl
  | ⟨.raise value, source⟩ => by
      rw [Stmt.sourceless, StmtForm.sourceless, Editor.editStmt, Editor.editStmt]
      exact .bind (.always (editOption h value)) fun _ => .pure rfl
  | ⟨.protect body catchers last, source⟩ => by
      rw [Stmt.sourceless, StmtForm.sourceless, Editor.editStmt, Editor.editStmt]
      exact .bind (.always (editBlock h body)) fun _ =>
        .bind (.always (editCatchers h catchers)) fun _ =>
          .bind (.always (editLast h last)) fun _ => .pure rfl
  | ⟨.declaration name type init, source⟩ => by
      rw [Stmt.sourceless, StmtForm.sourceless, Editor.editStmt, Editor.editStmt]
      exact .bind (.always (editOption h init)) fun _ => .pure rfl
  | ⟨.block block, source⟩ => by
      rw [Stmt.sourceless, StmtForm.sourceless, Editor.editStmt, Editor.editStmt]
      exact .bind (.always (editBlock h block)) fun _ => .pure rfl
  | ⟨.goto label, source⟩ => by
      rw [Stmt.sourceless, StmtForm.sourceless, Editor.editStmt, Editor.editStmt]
      exact .pure rfl
  | ⟨.snippet, source⟩ => by
      rw [Stmt.sourceless, StmtForm.sourceless, Editor.editStmt, Editor.editStmt]
      exact .pure rfl

theorem editStmts (h : Editor.Commutes g editor image) : (ss : List Stmt) →
    StateM.Commutes stmtsSourceless g (editor.editStmts ss) (image.editStmts (stmtsSourceless ss))
  | [] => by
      rw [stmtsSourceless, Editor.editStmts, Editor.editStmts]
      exact .pure rfl
  | s :: ss => by
      rw [stmtsSourceless, Editor.editStmts, Editor.editStmts]
      refine .bind (editStmt h s) fun edited => .bind (editStmts h ss) fun _ => .pure ?_
      cases edited <;> rfl

theorem editLabeled (h : Editor.Commutes g editor image) : (s : Option Stmt) →
    StateM.Commutes labeledSourceless g (editor.editLabeled s)
      (image.editLabeled (labeledSourceless s))
  | none => by
      rw [labeledSourceless, Editor.editLabeled, Editor.editLabeled]
      exact .pure rfl
  | some s => by
      rw [labeledSourceless, Editor.editLabeled, Editor.editLabeled,
        funext labeledSourceless_eq_map]
      exact editStmt h s

theorem editCatchers (h : Editor.Commutes g editor image) : (cs : List Catcher) →
    StateM.Commutes catchersSourceless g (editor.editCatchers cs)
      (image.editCatchers (catchersSourceless cs))
  | [] => by
      rw [catchersSourceless, Editor.editCatchers, Editor.editCatchers]
      exact .pure rfl
  | ⟨type, name, block⟩ :: cs => by
      rw [catchersSourceless, Editor.editCatchers, Editor.editCatchers]
      exact .bind (editBlock h block) fun _ => .bind (editCatchers h cs) fun _ => .pure rfl

theorem editLast (h : Editor.Commutes g editor image) : (block : Option Block) →
    StateM.Commutes lastSourceless g (editor.editLast block) (image.editLast (lastSourceless block))
  | none => by
      rw [lastSourceless, Editor.editLast, Editor.editLast]
      exact .pure rfl
  | some block => by
      rw [lastSourceless, Editor.editLast, Editor.editLast]
      exact .bind (editBlock h block) fun _ => .pure rfl

theorem editBlock (h : Editor.Commutes g editor image) : (block : Block) →
    StateM.Commutes Block.sourceless g (editor.editBlock block) (image.editBlock block.sourceless)
  | ⟨statements, source⟩ => by
      rw [Block.sourceless, Editor.editBlock, Editor.editBlock]
      exact .bind (editStmts h statements) fun _ => .pure rfl

end

end Editor.Commutes

/-! ## Visitors -/

/-- The overrides of a visitor commute with the loss of sources, if that which they walk on with
    does. -/
structure Visitor.Commutes (g : σ → τ) (visitor : Visitor σ) (image : Visitor τ) : Prop where
  block : ∀ {b walk walk'}, StateM.Commutes id g walk walk' →
    StateM.Commutes id g (visitor.block b walk) (image.block b.sourceless walk')
  stmt : ∀ {s walk walk'}, StateM.Commutes id g walk walk' →
    StateM.Commutes id g (visitor.stmt s walk) (image.stmt s.sourceless walk')
  expr : ∀ {e walk walk'}, StateM.Commutes id g walk walk' →
    StateM.Commutes id g (visitor.expr e walk) (image.expr e.sourceless walk')
  member : ∀ {receiver ref walk walk'}, StateM.Commutes id g walk walk' →
    StateM.Commutes id g (visitor.member receiver ref walk)
      (image.member (exprSourceless receiver) ref walk')
  call : ∀ {callee arguments walk walk'}, StateM.Commutes id g walk walk' →
    StateM.Commutes id g (visitor.call callee arguments walk)
      (image.call callee.sourceless (exprsSourceless arguments) walk')

namespace Visitor.Commutes

variable {g : σ → τ} {visitor : Visitor σ} {image : Visitor τ}

mutual

theorem visitExpr (h : Visitor.Commutes g visitor image) : (e : Expr) →
    StateM.Commutes id g (visitor.visitExpr e) (image.visitExpr e.sourceless)
  | ⟨form, type, source⟩ => by
      have hwalk := h.expr (e := ⟨form, type, source⟩) (walkExpr h form)
      rwa [Expr.sourceless] at hwalk

theorem walkExpr (h : Visitor.Commutes g visitor image) : (form : ExprForm) →
    StateM.Commutes id g (visitor.walkExpr form) (image.walkExpr form.sourceless)
  | .member receiver _ => h.member (visitOption h receiver)
  | .call callee arguments => h.call (.bind (visitExpr h callee) fun _ => visitExprs h arguments)
  | .qualified qualifier _ => visitExpr h qualifier
  | .binary _ left right => .bind (visitExpr h left) fun _ => visitExpr h right
  | .assignment statement => visitStmt h statement
  | .cast operand _ => visitExpr h operand
  | .indexer object operands => .bind (visitExpr h object) fun _ => visitExprs h operands
  | .constructArray _ size initializers =>
      .bind (visitExpr h size) fun _ => visitExprs h initializers
  | .construct _ operands => visitExprs h operands
  | .constructDelegate _ target _ => visitExpr h target
  | .addressOf operand => visitExpr h operand
  | .block block => visitBlock h block
  | .literal _ | .identifier _ | .thisRef | .baseRef | .setterValue | .typeExpr _ | .typeOf _
  | .snippet | .temporary _ | .missing => .pure rfl

theorem visitExprs (h : Visitor.Commutes g visitor image) : (es : List Expr) →
    StateM.Commutes id g (visitor.visitExprs es) (image.visitExprs (exprsSourceless es))
  | [] => .pure rfl
  | e :: es => .bind (visitExpr h e) fun _ => visitExprs h es

theorem visitOption (h : Visitor.Commutes g visitor image) : (e : Option Expr) →
    StateM.Commutes id g (visitor.visitOption e) (image.visitOption (exprSourceless e))
  | none => .pure rfl
  | some e => visitExpr h e

theorem visitStmt (h : Visitor.Commutes g visitor image) : (s : Stmt) →
    StateM.Commutes id g (visitor.visitStmt s) (image.visitStmt s.sourceless)
  | ⟨form, source⟩ => by
      have hwalk := h.stmt (s := ⟨form, source⟩) (walkStmt h form)
      rwa [Stmt.sourceless] at hwalk

theorem walkStmt (h : Visitor.Commutes g visitor image) : (form : StmtForm) →
    StateM.Commutes id g (visitor.walkStmt form) (image.walkStmt form.sourceless)
  | .assignment target value => .bind (visitExpr h target) fun _ => visitExpr h value
  | .attachEvent event handler => .bind (visitExpr h event) fun _ => visitExpr h handler
  | .removeEvent event handler => .bind (visitExpr h event) fun _ => visitExpr h handler
  | .branch condition whenTrue whenFalse =>
      .bind (visitExpr h condition) fun _ => .bind (visitBlock h whenTrue) fun _ =>
        visitBlock h whenFalse
  | .expression expression => visitExpr h expression
  | .labeled _ statement => visitLabeled h statement
  | .loop init test increment body =>
      .bind (visitStmts h init) fun _ => .bind (visitOption h test) fun _ =>
        .bind (visitStmts h increment) fun _ => visitBlock h body
  | .ret value => visitOption h value
  | .raise value => visitOption h value
  | .protect body catchers last =>
      .bind (visitBlock h body) fun _ => .bind (visitCatchers h catchers) fun _ => visitLast h last
  | .declaration _ _ init => visitOption h init
  | .block block => visitBlock h block
  | .goto _ | .snippet => .pure rfl

theorem visitStmts (h : Visitor.Commutes g visitor image) : (ss : List Stmt) →
    StateM.Commutes id g (visitor.visitStmts ss) (image.visitStmts (stmtsSourceless ss))
  | [] => .pure rfl
  | s :: ss => .bind (visitStmt h s) fun _ => visitStmts h ss

theorem visitLabeled (h : Visitor.Commutes g visitor image) : (s : Option Stmt) →
    StateM.Commutes id g (visitor.visitLabeled s) (image.visitLabeled (labeledSourceless s))
  | none => .pure rfl
  | some s => visitStmt h s

theorem visitCatchers (h : Visitor.Commutes g visitor image) : (cs : List Catcher) →
    StateM.Commutes id g (visitor.visitCatchers cs) (image.visitCatchers (catchersSourceless cs))
  | [] => .pure rfl
  | ⟨_, _, block⟩ :: cs => .bind (visitBlock h block) fun _ => visitCatchers h cs

theorem visitLast (h : Visitor.Commutes g visitor image) : (block : Option Block) →
    StateM.Commutes id g (visitor.visitLast block) (image.visitLast (lastSourceless block))
  | none => .pure rfl
  | some block => visitBlock h block

theorem visitBlock (h : Visitor.Commutes g visitor image) : (block : Block) →
    StateM.Commutes id g (visitor.visitBlock block) (image.visitBlock block.sourceless)
  | ⟨statements, source⟩ => by
      have hwalk := h.block (b := ⟨statements, source⟩) (visitStmts h statements)
      rwa [Block.sourceless] at hwalk

end

end Visitor.Commutes

end MiddleEnd
