/-
  Rewriting of code from the inside out. Blocks and assignments are replaced once their parts are
  rewritten; every other node is built again from its parts. Types are left alone. Nothing is
  threaded through and nothing is deleted, so a rewriting is the plain counterpart of an editor.
-/
import MiddleEnd.Code.Basic

namespace MiddleEnd

/-- What becomes of blocks and assignments whose parts are rewritten. -/
structure Rewriting where
  /-- A block that is an expression. -/
  block : Block → ExprForm := .block
  /-- A block that is a statement. -/
  blockStmt : Block → StmtForm := .block
  assignment : Expr → Expr → StmtForm := .assignment

namespace Rewriting

variable (f : Rewriting)

mutual

def onExpr : Expr → Expr
  | ⟨form, type, source⟩ => ⟨onForm form, type, source⟩

def onForm : ExprForm → ExprForm
  | .member receiver ref => .member (onOption receiver) ref
  | .call callee arguments => .call (onExpr callee) (onExprs arguments)
  | .qualified qualifier name => .qualified (onExpr qualifier) name
  | .binary op left right => .binary op (onExpr left) (onExpr right)
  | .assignment statement => .assignment (onStmt statement)
  | .cast operand target => .cast (onExpr operand) target
  | .indexer object operands => .indexer (onExpr object) (onExprs operands)
  | .constructArray element size initializers =>
    .constructArray element (onExpr size) (onExprs initializers)
  | .construct constructed operands => .construct constructed (onExprs operands)
  | .constructDelegate delegate target method => .constructDelegate delegate (onExpr target) method
  | .addressOf operand => .addressOf (onExpr operand)
  | .block block => f.block (onBlock block)
  | .literal l => .literal l
  | .identifier name => .identifier name
  | .thisRef => .thisRef
  | .baseRef => .baseRef
  | .setterValue => .setterValue
  | .typeExpr t => .typeExpr t
  | .typeOf t => .typeOf t
  | .snippet => .snippet
  | .temporary id => .temporary id
  | .missing => .missing

def onOption : Option Expr → Option Expr
  | none => none
  | some e => some (onExpr e)

def onExprs : List Expr → List Expr
  | [] => []
  | e :: es => onExpr e :: onExprs es

def onStmt : Stmt → Stmt
  | ⟨form, source⟩ => ⟨onStmtForm form, source⟩

def onStmtForm : StmtForm → StmtForm
  | .assignment target value => f.assignment (onExpr target) (onExpr value)
  | .attachEvent event handler => .attachEvent (onExpr event) (onExpr handler)
  | .removeEvent event handler => .removeEvent (onExpr event) (onExpr handler)
  | .branch condition whenTrue whenFalse =>
    .branch (onExpr condition) (onBlock whenTrue) (onBlock whenFalse)
  | .expression expression => .expression (onExpr expression)
  | .labeled label statement => .labeled label (onLabeled statement)
  | .loop init test increment body =>
    .loop (onStmts init) (onOption test) (onStmts increment) (onBlock body)
  | .ret value => .ret (onOption value)
  | .raise value => .raise (onOption value)
  | .protect body catchers last => .protect (onBlock body) (onCatchers catchers) (onLast last)
  | .declaration name type init => .declaration name type (onOption init)
  | .block block => f.blockStmt (onBlock block)
  | .goto label => .goto label
  | .snippet => .snippet

def onLabeled : Option Stmt → Option Stmt
  | none => none
  | some statement => some (onStmt statement)

def onStmts : List Stmt → List Stmt
  | [] => []
  | s :: ss => onStmt s :: onStmts ss

def onCatchers : List Catcher → List Catcher
  | [] => []
  | ⟨type, name, block⟩ :: cs => ⟨type, name, onBlock block⟩ :: onCatchers cs

def onLast : Option Block → Option Block
  | none => none
  | some block => some (onBlock block)

def onBlock : Block → Block
  | ⟨statements, source⟩ => ⟨onStmts statements, source⟩

end

attribute [simp] onExpr onForm onOption onExprs onStmt onStmtForm onLabeled onStmts onCatchers
  onLast onBlock

end Rewriting

end MiddleEnd
