/-
  The code of method bodies: expressions, statements, blocks, and the types they mention. Every
  expression carries its static type when it is known, and every node its source.
-/
import MiddleEnd.Code.Literal
import MiddleEnd.Source.Document
import MiddleEnd.Universe.Id

namespace MiddleEnd

/-- The binary operators. -/
inductive BinaryOp where
  | add
  | sub
  | mul
  | div
  | rem
  | and
  | or
  | logicalAnd
  | logicalOr
  | eq
  | ne
  | lt
  | le
  | gt
  | ge
  deriving DecidableEq, Repr

mutual

/-- A use of a type. -/
inductive TypeRef where
  | primitive (type : PrimitiveType)
  /-- Not yet resolved: a name, perhaps qualified. -/
  | named (name : Expr)
  | array (element : TypeRef) (rank : UInt32)
  /-- What is passed by reference. -/
  | reference (target : TypeRef)
  | bound (id : TypeId)

/-- An expression, with its type once that is known and the place it comes from. -/
structure Expr where
  form : ExprForm
  type : Option TypeRef := none
  source : Option SourceContext := none

/-- What an expression is. -/
inductive ExprForm where
  | literal (value : Literal)
  | identifier (name : String)
  | qualified (qualifier : Expr) (name : String)
  | thisRef
  | baseRef
  /-- The value given to a property's setter. -/
  | setterValue
  | binary (op : BinaryOp) (left right : Expr)
  | assignment (statement : Stmt)
  | cast (operand : Expr) (target : TypeRef)
  | indexer (object : Expr) (operands : List Expr)
  | constructArray (element : TypeRef) (size : Expr) (initializers : List Expr)
  | construct (type : TypeRef) (operands : List Expr)
  | constructDelegate (type : TypeRef) (target : Expr) (method : String)
  | call (callee : Expr) (arguments : List Expr)
  /-- A member that has been found; static ones have no receiver. -/
  | member (receiver : Option Expr) (member : MemberRef)
  | typeExpr (type : TypeRef)
  | typeOf (type : TypeRef)
  | addressOf (operand : Expr)
  /-- Source text as it stands; the text is that of the source. -/
  | snippet
  /-- Statements, and the value of the last of them. -/
  | block (block : Block)
  | temporary (id : LocalId)
  /-- In place of a required part that could not be read. -/
  | missing

/-- A statement, with the place it comes from. -/
structure Stmt where
  form : StmtForm
  source : Option SourceContext := none

/-- What a statement is. -/
inductive StmtForm where
  | assignment (target value : Expr)
  | attachEvent (event handler : Expr)
  | removeEvent (event handler : Expr)
  | branch (condition : Expr) (whenTrue whenFalse : Block)
  | expression (expression : Expr)
  | goto (label : String)
  | labeled (label : String) (statement : Option Stmt)
  | loop (init : List Stmt) (test : Option Expr) (increment : List Stmt) (body : Block)
  | ret (value : Option Expr)
  | raise (value : Option Expr)
  | protect (body : Block) (catchers : List Catcher) (last : Option Block)
  | declaration (name : String) (type : TypeRef) (init : Option Expr)
  | snippet
  | block (block : Block)

/-- Without a type it catches everything. -/
structure Catcher where
  type : Option TypeRef
  name : String
  block : Block

/-- Statements in their order. -/
structure Block where
  statements : List Stmt
  source : Option SourceContext := none

end

namespace TypeRef

/-- The type of a method without a result. -/
def void : TypeRef := .primitive .void

/-- The type of whole numbers of 32 bits. -/
def int32 : TypeRef := .primitive .int32

/-- A type of places that hold a value of another type. -/
def isReference : TypeRef → Bool
  | .reference _ => true
  | _ => false

/-- Whether the type is the declared type `id`. -/
def isBoundTo (id : TypeId) : TypeRef → Bool
  | .bound i => decide (i = id)
  | _ => false

end TypeRef

namespace ExprForm

/-- The bare expression, without type or source. -/
def expr (form : ExprForm) : Expr := { form }

end ExprForm

namespace Expr

/-- A literal of the type of its constant. -/
def literal (l : Literal) : Expr := { form := .literal l, type := some (.primitive l.type) }

/-- A plain name. -/
def identifier (name : String) : Expr := (ExprForm.identifier name).expr

/-- The expression that stands where one could not be read. -/
def missing : Expr := ExprForm.missing.expr

/-- The value of an expression that is a literal. -/
def literal? (e : Expr) : Option Literal :=
  match e.form with
  | .literal l => some l
  | _ => none

end Expr

/-- An expression for its effect. -/
def Stmt.expression (e : Expr) : Stmt := { form := .expression e }

/-- The assignment of a value to a target. -/
def Stmt.assignment (target value : Expr) : Stmt := { form := .assignment target value }

namespace Block

/-- No statements. -/
def empty : Block := { statements := [] }

/-- How many statements the block has itself. -/
def length (b : Block) : Nat := b.statements.length

/-- The block has no statements. -/
def isEmpty (b : Block) : Bool := b.statements.isEmpty

end Block

end MiddleEnd
