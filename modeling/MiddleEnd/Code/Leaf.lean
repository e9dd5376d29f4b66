/-
  The leaves of code, that is its literals and snippets, in the order of its text. A text does not
  show static types, so their leaves are listed only on request.
-/
import MiddleEnd.Code.Basic

namespace MiddleEnd

/-- A part of the code whose text is quoted as it stands. -/
inductive Leaf where
  | literal (value : Literal)
  | snippet (source : Option SourceContext)

mutual

/-- The leaves of a type; with `static`, also those in the types of expressions. -/
def TypeRef.leaves (static : Bool) : TypeRef → List Leaf
  | .primitive _ => []
  | .named name => name.leaves static
  | .array element _ => element.leaves static
  | .reference target => target.leaves static
  | .bound _ => []

/-- The leaves of an expression, from left to right. -/
def Expr.leaves (static : Bool) : Expr → List Leaf
  | ⟨form, type, source⟩ =>
    form.leaves static source ++ (if static then typeLeaves static type else [])

/-- The leaves of the parts of an expression. -/
def ExprForm.leaves (static : Bool) (source : Option SourceContext) : ExprForm → List Leaf
  | .literal l => [.literal l]
  | .identifier _ => []
  | .qualified qualifier _ => qualifier.leaves static
  | .thisRef => []
  | .baseRef => []
  | .setterValue => []
  | .binary _ left right => left.leaves static ++ right.leaves static
  | .assignment statement => statement.leaves static
  | .cast operand target => target.leaves static ++ operand.leaves static
  | .indexer object operands => object.leaves static ++ exprsLeaves static operands
  | .constructArray element size initializers =>
    element.leaves static ++ size.leaves static ++ exprsLeaves static initializers
  | .construct type operands => type.leaves static ++ exprsLeaves static operands
  | .constructDelegate type target _ => type.leaves static ++ target.leaves static
  | .call callee arguments => callee.leaves static ++ exprsLeaves static arguments
  | .member receiver _ => exprLeaves static receiver
  | .typeExpr type => type.leaves static
  | .typeOf type => type.leaves static
  | .addressOf operand => operand.leaves static
  | .snippet => [.snippet source]
  | .block block => block.leaves static
  | .temporary _ => []
  | .missing => []

/-- The leaves of a type, if there is one. -/
def typeLeaves (static : Bool) : Option TypeRef → List Leaf
  | none => []
  | some type => type.leaves static

/-- The leaves of an expression, if there is one. -/
def exprLeaves (static : Bool) : Option Expr → List Leaf
  | none => []
  | some e => e.leaves static

/-- The leaves of expressions one after the other. -/
def exprsLeaves (static : Bool) : List Expr → List Leaf
  | [] => []
  | e :: es => e.leaves static ++ exprsLeaves static es

/-- The leaves of a statement, from left to right. -/
def Stmt.leaves (static : Bool) : Stmt → List Leaf
  | ⟨form, source⟩ => form.leaves static source

/-- The leaves of the parts of a statement. -/
def StmtForm.leaves (static : Bool) (source : Option SourceContext) : StmtForm → List Leaf
  | .assignment target value => target.leaves static ++ value.leaves static
  | .attachEvent event handler => event.leaves static ++ handler.leaves static
  | .removeEvent event handler => event.leaves static ++ handler.leaves static
  | .branch condition whenTrue whenFalse =>
    condition.leaves static ++ whenTrue.leaves static ++ whenFalse.leaves static
  | .expression expression => expression.leaves static
  | .goto _ => []
  | .labeled _ statement => labeledLeaves static statement
  | .loop init test increment body =>
    stmtsLeaves static init ++ exprLeaves static test ++ stmtsLeaves static increment
      ++ body.leaves static
  | .ret value => exprLeaves static value
  | .raise value => exprLeaves static value
  | .protect body catchers last =>
    body.leaves static ++ catchersLeaves static catchers ++ lastLeaves static last
  | .declaration _ type init => type.leaves static ++ exprLeaves static init
  | .snippet => [.snippet source]
  | .block block => block.leaves static

/-- The leaves of the statement behind a label, if there is one. -/
def labeledLeaves (static : Bool) : Option Stmt → List Leaf
  | none => []
  | some statement => statement.leaves static

/-- The leaves of statements one after the other. -/
def stmtsLeaves (static : Bool) : List Stmt → List Leaf
  | [] => []
  | s :: ss => s.leaves static ++ stmtsLeaves static ss

/-- The leaves of catch clauses, with the types they catch. -/
def catchersLeaves (static : Bool) : List Catcher → List Leaf
  | [] => []
  | ⟨type, _, block⟩ :: cs =>
    typeLeaves static type ++ block.leaves static ++ catchersLeaves static cs

/-- The leaves of the last block of a `try`, if there is one. -/
def lastLeaves (static : Bool) : Option Block → List Leaf
  | none => []
  | some block => block.leaves static

/-- The leaves of the statements of a block. -/
def Block.leaves (static : Bool) : Block → List Leaf
  | ⟨statements, _⟩ => stmtsLeaves static statements

end

/-- Whether code equals itself: a literal that is not a number equals nothing. -/
def Block.equalsItself (b : Block) : Bool :=
  (b.leaves true).all fun
    | .literal l => !l.isNaN
    | .snippet _ => true

/-! Quotations -/

/-- The region that the text of a leaf quotes. -/
def Leaf.quote? : Leaf → Option SourceContext
  | .literal _ => none
  | .snippet source => source

/-- The regions of source that a text quotes. -/
abbrev Quotes := List SourceContext

/-- What a type quotes. -/
def TypeRef.quotes (t : TypeRef) : Quotes := (t.leaves false).filterMap Leaf.quote?

/-- What an expression quotes. -/
def Expr.quotes (e : Expr) : Quotes := (e.leaves false).filterMap Leaf.quote?

/-- What a statement quotes. -/
def Stmt.quotes (s : Stmt) : Quotes := (s.leaves false).filterMap Leaf.quote?

/-- What a block quotes. -/
def Block.quotes (b : Block) : Quotes := (b.leaves false).filterMap Leaf.quote?

/-- What shows the quotes, if each of them ends at an offset of 64 bits. -/
def quoting (a : α) : Quotes → Except Overflow α
  | [] => .ok a
  | q :: qs => do
    let _ ← q.stopOffset
    quoting a qs

end MiddleEnd
