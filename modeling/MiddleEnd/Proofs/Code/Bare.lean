/-
  Bare code: what is left of code without static types and sources, snippets' sources included.
  Code is equal up to static types and sources if it is the same bare code.
-/
import MiddleEnd.Code.Basic

namespace MiddleEnd

mutual

def TypeRef.bare : TypeRef → TypeRef
  | .primitive p => .primitive p
  | .named name => .named name.bare
  | .array element rank => .array element.bare rank
  | .reference target => .reference target.bare
  | .bound id => .bound id

def Expr.bare : Expr → Expr
  | ⟨form, _, _⟩ => ⟨form.bare, none, none⟩

def ExprForm.bare : ExprForm → ExprForm
  | .member receiver ref => .member (exprBare receiver) ref
  | .call callee arguments => .call callee.bare (exprsBare arguments)
  | .qualified qualifier name => .qualified qualifier.bare name
  | .binary op left right => .binary op left.bare right.bare
  | .assignment statement => .assignment statement.bare
  | .cast operand target => .cast operand.bare target.bare
  | .indexer object operands => .indexer object.bare (exprsBare operands)
  | .constructArray element size initializers =>
    .constructArray element.bare size.bare (exprsBare initializers)
  | .construct type operands => .construct type.bare (exprsBare operands)
  | .constructDelegate type target method => .constructDelegate type.bare target.bare method
  | .addressOf operand => .addressOf operand.bare
  | .block block => .block block.bare
  | .literal l => .literal l
  | .identifier name => .identifier name
  | .thisRef => .thisRef
  | .baseRef => .baseRef
  | .setterValue => .setterValue
  | .typeExpr type => .typeExpr type.bare
  | .typeOf type => .typeOf type.bare
  | .snippet => .snippet
  | .temporary id => .temporary id
  | .missing => .missing

def exprBare : Option Expr → Option Expr
  | none => none
  | some e => some e.bare

def exprsBare : List Expr → List Expr
  | [] => []
  | e :: es => e.bare :: exprsBare es

def Stmt.bare : Stmt → Stmt
  | ⟨form, _⟩ => ⟨form.bare, none⟩

def StmtForm.bare : StmtForm → StmtForm
  | .assignment target value => .assignment target.bare value.bare
  | .attachEvent event handler => .attachEvent event.bare handler.bare
  | .removeEvent event handler => .removeEvent event.bare handler.bare
  | .branch condition whenTrue whenFalse =>
    .branch condition.bare whenTrue.bare whenFalse.bare
  | .expression expression => .expression expression.bare
  | .labeled label statement => .labeled label (labeledBare statement)
  | .loop init test increment body =>
    .loop (stmtsBare init) (exprBare test) (stmtsBare increment) body.bare
  | .ret value => .ret (exprBare value)
  | .raise value => .raise (exprBare value)
  | .protect body catchers last =>
    .protect body.bare (catchersBare catchers) (lastBare last)
  | .declaration name type init => .declaration name type.bare (exprBare init)
  | .block block => .block block.bare
  | .goto label => .goto label
  | .snippet => .snippet

def labeledBare : Option Stmt → Option Stmt
  | none => none
  | some statement => some statement.bare

def stmtsBare : List Stmt → List Stmt
  | [] => []
  | s :: ss => s.bare :: stmtsBare ss

def catchersBare : List Catcher → List Catcher
  | [] => []
  | ⟨type, name, block⟩ :: cs => ⟨caughtBare type, name, block.bare⟩ :: catchersBare cs

def caughtBare : Option TypeRef → Option TypeRef
  | none => none
  | some type => some type.bare

def lastBare : Option Block → Option Block
  | none => none
  | some block => some block.bare

def Block.bare : Block → Block
  | ⟨statements, _⟩ => ⟨stmtsBare statements, none⟩

end

end MiddleEnd
