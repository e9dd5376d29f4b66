/-
  Read-only walks over method bodies, in the order in which an editor walks. The overrides of a
  visitor see a node together with the action that visits its parts.
-/
import MiddleEnd.Code.Basic

namespace MiddleEnd

/-- The overrides of a visitor. Each gets the node and the action that walks on below it. -/
structure Visitor (σ : Type) where
  block : Block → StateM σ Unit → StateM σ Unit := fun _ walk => walk
  stmt : Stmt → StateM σ Unit → StateM σ Unit := fun _ walk => walk
  expr : Expr → StateM σ Unit → StateM σ Unit := fun _ walk => walk
  /-- A member with its receiver. -/
  member : Option Expr → MemberRef → StateM σ Unit → StateM σ Unit := fun _ _ walk => walk
  /-- A call with its callee and arguments. -/
  call : Expr → List Expr → StateM σ Unit → StateM σ Unit := fun _ _ walk => walk

namespace Visitor

variable {σ : Type} (visitor : Visitor σ)

mutual

/-- Visits an expression; the visitor is given the visit of its parts. -/
def visitExpr : Expr → StateM σ Unit
  | ⟨form, type, source⟩ => visitor.expr ⟨form, type, source⟩ (walkExpr form)

/-- The parts of an expression, types apart. -/
def walkExpr : ExprForm → StateM σ Unit
  | .member receiver member => visitor.member receiver member (visitOption receiver)
  | .call callee arguments =>
    visitor.call callee arguments do
      visitExpr callee
      visitExprs arguments
  | .qualified qualifier _ => visitExpr qualifier
  | .binary _ left right => do
    visitExpr left
    visitExpr right
  | .assignment statement => visitStmt statement
  | .cast operand _ => visitExpr operand
  | .indexer object operands => do
    visitExpr object
    visitExprs operands
  | .constructArray _ size initializers => do
    visitExpr size
    visitExprs initializers
  | .construct _ operands => visitExprs operands
  | .constructDelegate _ target _ => visitExpr target
  | .addressOf operand => visitExpr operand
  | .block block => visitBlock block
  | .literal _ => return
  | .identifier _ => return
  | .thisRef => return
  | .baseRef => return
  | .setterValue => return
  | .typeExpr _ => return
  | .typeOf _ => return
  | .snippet => return
  | .temporary _ => return
  | .missing => return

/-- Visits expressions from left to right. -/
def visitExprs : List Expr → StateM σ Unit
  | [] => return
  | e :: es => do
    visitExpr e
    visitExprs es

/-- Visits an expression, if there is one. -/
def visitOption : Option Expr → StateM σ Unit
  | none => return
  | some e => visitExpr e

/-- Visits a statement; the visitor is given the visit of its parts. -/
def visitStmt : Stmt → StateM σ Unit
  | ⟨form, source⟩ => visitor.stmt ⟨form, source⟩ (walkStmt form)

/-- Visits the parts of a statement. -/
def walkStmt : StmtForm → StateM σ Unit
  | .assignment target value => do
    visitExpr target
    visitExpr value
  | .attachEvent event handler => do
    visitExpr event
    visitExpr handler
  | .removeEvent event handler => do
    visitExpr event
    visitExpr handler
  | .branch condition whenTrue whenFalse => do
    visitExpr condition
    visitBlock whenTrue
    visitBlock whenFalse
  | .expression expression => visitExpr expression
  | .labeled _ statement => visitLabeled statement
  | .loop init test increment body => do
    visitStmts init
    visitOption test
    visitStmts increment
    visitBlock body
  | .ret value => visitOption value
  | .raise value => visitOption value
  | .protect body catchers last => do
    visitBlock body
    visitCatchers catchers
    visitLast last
  | .declaration _ _ init => visitOption init
  | .block block => visitBlock block
  | .goto _ => return
  | .snippet => return

/-- Visits statements one after the other. -/
def visitStmts : List Stmt → StateM σ Unit
  | [] => return
  | s :: ss => do
    visitStmt s
    visitStmts ss

/-- Visits the statement behind a label, if there is one. -/
def visitLabeled : Option Stmt → StateM σ Unit
  | none => return
  | some s => visitStmt s

/-- Visits the blocks of catch clauses. -/
def visitCatchers : List Catcher → StateM σ Unit
  | [] => return
  | ⟨_, _, block⟩ :: cs => do
    visitBlock block
    visitCatchers cs

/-- Visits the last block of a `try`, if there is one. -/
def visitLast : Option Block → StateM σ Unit
  | none => return
  | some block => visitBlock block

/-- Visits a block; the visitor is given the visit of its statements. -/
def visitBlock : Block → StateM σ Unit
  | ⟨statements, source⟩ => visitor.block ⟨statements, source⟩ (visitStmts statements)

end

end Visitor

end MiddleEnd
