/-
  Edits of method bodies. An editor walks over a block and gives back what becomes of each node; a
  node may also be deleted. Deleting a required part deletes the whole; an optional part (the
  value of a return, the test of a loop, an initial value) just becomes empty, and deleted
  statements drop out of their list.

  The overrides of an editor see a node together with the actions that edit its parts, and decide
  which of them run and in which order. What no override touches is walked through as it is.
-/
import MiddleEnd.Code.Basic

namespace MiddleEnd

/-- Editing with a state; no result means that the node is deleted. -/
abbrev Edit (σ : Type) := OptionT (StateM σ)

namespace Edit

variable {σ α : Type}

/-- The node is deleted. -/
def delete : Edit σ α := OptionT.fail

/-- A part that may go without taking the whole with it. -/
def optional (edit : Edit σ α) : Edit σ (Option α) := OptionT.lift edit.run

/-- An edit that cannot delete its node. -/
def always (edit : StateM σ α) : Edit σ α := OptionT.lift edit

end Edit

/-- The parts of an assignment, each with the edit it would get. -/
structure AssignmentParts (σ : Type) where
  target : Expr
  value : Expr
  source : Option SourceContext
  editTarget : Edit σ Expr
  editValue : Edit σ Expr
  /-- The receiver of a target that is a member. -/
  editReceiver : Edit σ (Option Expr)

/-- What is left of an assignment once both sides are edited. -/
def AssignmentParts.walk {σ : Type} (parts : AssignmentParts σ) : Edit σ Stmt := do
  let target ← parts.editTarget
  let value ← parts.editValue
  return { form := .assignment target value, source := parts.source }

/-- The overrides of an editor. Each gets the node and the action that walks on below it. -/
structure Editor (σ : Type) where
  /-- Any expression, before the more special overrides. -/
  expr : Expr → Edit σ Expr → Edit σ Expr := fun _ walk => walk
  /-- A member with its receiver. -/
  member : Expr → Option Expr → MemberRef → Edit σ (Option Expr) → Edit σ Expr :=
    fun e _ member receiver => do return { e with form := .member (← receiver) member }
  /-- A call with its callee and arguments. -/
  call : Expr → Expr → List Expr → Edit σ Expr → Edit σ Expr := fun _ _ _ walk => walk
  assignment : AssignmentParts σ → Edit σ Stmt := AssignmentParts.walk

namespace Editor

variable {σ : Type} (editor : Editor σ)

mutual

/-- Edits an expression; the editor is given the edit of its parts. -/
def editExpr : Expr → Edit σ Expr
  | ⟨form, type, source⟩ => editor.expr ⟨form, type, source⟩ (walkExpr type source form)

/-- What becomes of an expression by its parts. -/
def walkExpr (type : Option TypeRef) (source : Option SourceContext) : ExprForm → Edit σ Expr
  | .member receiver member =>
    editor.member ⟨.member receiver member, type, source⟩ receiver member (editReceiver receiver)
  | .call callee arguments =>
    editor.call ⟨.call callee arguments, type, source⟩ callee arguments do
      return ⟨.call (← editExpr callee) (← editExprs arguments), type, source⟩
  | .qualified qualifier name => do return ⟨.qualified (← editExpr qualifier) name, type, source⟩
  | .binary op left right => do
    return ⟨.binary op (← editExpr left) (← editExpr right), type, source⟩
  | .assignment statement => do return ⟨.assignment (← editStmt statement), type, source⟩
  | .cast operand target => do return ⟨.cast (← editExpr operand) target, type, source⟩
  | .indexer object operands => do
    return ⟨.indexer (← editExpr object) (← editExprs operands), type, source⟩
  | .constructArray element size initializers => do
    return ⟨.constructArray element (← editExpr size) (← editExprs initializers), type, source⟩
  | .construct constructed operands => do
    return ⟨.construct constructed (← editExprs operands), type, source⟩
  | .constructDelegate delegate target method => do
    return ⟨.constructDelegate delegate (← editExpr target) method, type, source⟩
  | .addressOf operand => do return ⟨.addressOf (← editExpr operand), type, source⟩
  | .block block => do return ⟨.block (← Edit.always (editBlock block)), type, source⟩
  | .literal l => return ⟨.literal l, type, source⟩
  | .identifier name => return ⟨.identifier name, type, source⟩
  | .thisRef => return ⟨.thisRef, type, source⟩
  | .baseRef => return ⟨.baseRef, type, source⟩
  | .setterValue => return ⟨.setterValue, type, source⟩
  | .typeExpr t => return ⟨.typeExpr t, type, source⟩
  | .typeOf t => return ⟨.typeOf t, type, source⟩
  | .snippet => return ⟨.snippet, type, source⟩
  | .temporary id => return ⟨.temporary id, type, source⟩
  | .missing => return ⟨.missing, type, source⟩

/-- A receiver is required where it stands. -/
def editReceiver : Option Expr → Edit σ (Option Expr)
  | none => return none
  | some receiver => do return some (← editExpr receiver)

/-- One deletion deletes the whole list. -/
def editExprs : List Expr → Edit σ (List Expr)
  | [] => return []
  | e :: es => do
    let e ← editExpr e
    let es ← editExprs es
    return e :: es

/-- An optional expression. -/
def editOption : Option Expr → StateM σ (Option Expr)
  | none => return none
  | some e => (editExpr e).run

/-- Edits a statement; the editor is given the edit of its parts. -/
def editStmt : Stmt → Edit σ Stmt
  | ⟨.assignment ⟨.member receiver member, type, targetSource⟩ value, source⟩ =>
    editor.assignment {
      target := ⟨.member receiver member, type, targetSource⟩
      value
      source
      editTarget := editExpr ⟨.member receiver member, type, targetSource⟩
      editValue := editExpr value
      editReceiver := editReceiver receiver }
  | ⟨.assignment target value, source⟩ =>
    editor.assignment {
      target
      value
      source
      editTarget := editExpr target
      editValue := editExpr value
      editReceiver := return none }
  | ⟨.attachEvent event handler, source⟩ => do
    return ⟨.attachEvent (← editExpr event) (← editExpr handler), source⟩
  | ⟨.removeEvent event handler, source⟩ => do
    return ⟨.removeEvent (← editExpr event) (← editExpr handler), source⟩
  | ⟨.branch condition whenTrue whenFalse, source⟩ => do
    let condition ← editExpr condition
    let whenTrue ← Edit.always (editBlock whenTrue)
    let whenFalse ← Edit.always (editBlock whenFalse)
    return ⟨.branch condition whenTrue whenFalse, source⟩
  | ⟨.expression expression, source⟩ => do return ⟨.expression (← editExpr expression), source⟩
  | ⟨.labeled label statement, source⟩ => do
    return ⟨.labeled label (← Edit.always (editLabeled statement)), source⟩
  | ⟨.loop init test increment body, source⟩ => do
    let init ← Edit.always (editStmts init)
    let test ← Edit.always (editOption test)
    let increment ← Edit.always (editStmts increment)
    let body ← Edit.always (editBlock body)
    return ⟨.loop init test increment body, source⟩
  | ⟨.ret value, source⟩ => do return ⟨.ret (← Edit.always (editOption value)), source⟩
  | ⟨.raise value, source⟩ => do return ⟨.raise (← Edit.always (editOption value)), source⟩
  | ⟨.protect body catchers last, source⟩ => do
    let body ← Edit.always (editBlock body)
    let catchers ← Edit.always (editCatchers catchers)
    let last ← Edit.always (editLast last)
    return ⟨.protect body catchers last, source⟩
  | ⟨.declaration name type init, source⟩ => do
    return ⟨.declaration name type (← Edit.always (editOption init)), source⟩
  | ⟨.block block, source⟩ => do return ⟨.block (← Edit.always (editBlock block)), source⟩
  | ⟨.goto label, source⟩ => return ⟨.goto label, source⟩
  | ⟨.snippet, source⟩ => return ⟨.snippet, source⟩

/-- Deleted statements drop out. -/
def editStmts : List Stmt → StateM σ (List Stmt)
  | [] => return []
  | s :: ss => do
    let s ← (editStmt s).run
    let ss ← editStmts ss
    return s.toList ++ ss

/-- Edits the statement behind a label, if there is one. -/
def editLabeled : Option Stmt → StateM σ (Option Stmt)
  | none => return none
  | some s => (editStmt s).run

/-- Edits the blocks of catch clauses. -/
def editCatchers : List Catcher → StateM σ (List Catcher)
  | [] => return []
  | ⟨type, name, block⟩ :: cs => do
    let block ← editBlock block
    let cs ← editCatchers cs
    return ⟨type, name, block⟩ :: cs

/-- Edits the last block of a `try`, if there is one. -/
def editLast : Option Block → StateM σ (Option Block)
  | none => return none
  | some block => do return some (← editBlock block)

/-- Edits the statements of a block. -/
def editBlock : Block → StateM σ Block
  | ⟨statements, source⟩ => do return ⟨← editStmts statements, source⟩

end

end Editor

end MiddleEnd
