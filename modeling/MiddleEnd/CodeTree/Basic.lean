/-
  The code tree: a program as a front end hands it over, with nothing resolved yet. Members,
  statements and expressions are open sets. A node of a shape that is not known here is kept as
  unrecognized, under the name of its kind.
-/
import MiddleEnd.CodeTree.Attributes
import MiddleEnd.Number.Decimal
import MiddleEnd.Number.Binary
import MiddleEnd.Source.Document

namespace MiddleEnd.CodeTree

/-- Where a snippet stands in a larger file. -/
structure LinePragma where
  fileName : String
  lineNumber : UInt32
  deriving DecidableEq, Repr

/-- A type by its dotted name, or an array of such a type. -/
structure TypeReference where
  baseType : String
  arrayElement : Option TypeReference
  arrayRank : UInt32
  deriving Repr

/-- How an argument is passed: by value, as a result, or by reference. -/
inductive Direction where
  | input
  | output
  | reference
  deriving DecidableEq, Repr

/-- The binary operators of a tree; assignment is one of them. -/
inductive BinaryOperator where
  | add
  | assign
  | bitwiseAnd
  | bitwiseOr
  | booleanAnd
  | booleanOr
  | divide
  | greaterThan
  | greaterThanOrEqual
  | identityEquality
  | identityInequality
  | lessThan
  | lessThanOrEqual
  | modulus
  | multiply
  | subtract
  | valueEquality
  deriving DecidableEq, Repr

/-- A constant. -/
inductive Primitive where
  | null
  | boolean (value : Bool)
  | char (value : Char)
  | sbyte (value : Int8)
  | byte (value : UInt8)
  | int16 (value : Int16)
  | uint16 (value : UInt16)
  | int32 (value : Int32)
  | uint32 (value : UInt32)
  | int64 (value : Int64)
  | uint64 (value : UInt64)
  | single (value : Single)
  | double (value : Double)
  | decimal (value : Decimal)
  | string (value : String)
  | dateTime (ticks : Int64)
  | dbNull
  deriving DecidableEq

mutual

/-- An expression of a tree, with the place it comes from. -/
structure Expr where
  form : ExprForm
  source : Option SourceContext := none

/-- What an expression of a tree is. -/
inductive ExprForm where
  | argumentRef (name : String)
  /-- The size counts only without a size expression. -/
  | arrayCreate (type : TypeReference) (initializers : List Expr) (size : Int32)
      (sizeExpr : Option Expr)
  | arrayIndexer (target : Expr) (indices : List Expr)
  | baseRef
  | binary (left : Expr) (op : BinaryOperator) (right : Expr)
  | cast (type : TypeReference) (operand : Expr)
  | delegateCreate (type : TypeReference) (target : Expr) (method : String)
  | delegateInvoke (target : Expr) (arguments : List Expr)
  | direction (direction : Direction) (operand : Expr)
  | eventRef (target : Expr) (name : String)
  | fieldRef (target : Option Expr) (name : String)
  | indexer (target : Expr) (indices : List Expr)
  | methodInvoke (target : Option Expr) (method : String) (arguments : List Expr)
  | methodRef (target : Option Expr) (method : String)
  | objectCreate (type : TypeReference) (arguments : List Expr)
  | primitive (value : Primitive)
  | propertyRef (target : Expr) (name : String)
  | setterValue
  | snippet (value : String)
  | thisRef
  | typeOf (type : TypeReference)
  | typeRef (type : TypeReference)
  | variableRef (name : String)
  | unrecognized (kind : String)

end

mutual

/-- A statement of a tree, with the place it comes from. -/
structure Stmt where
  form : StmtForm
  source : Option SourceContext := none

/-- What a statement of a tree is. -/
inductive StmtForm where
  | assign (left right : Expr)
  | attachEvent (event listener : Expr)
  | removeEvent (event listener : Expr)
  | comment (text : String)
  | condition (condition : Expr) (whenTrue whenFalse : List Stmt)
  | expression (expression : Expr)
  | goto (label : String)
  | iteration (init : Option Stmt) (test : Option Expr) (increment : Option Stmt)
      (body : List Stmt)
  | labeled (label : String) (statement : Option Stmt)
  | methodReturn (value : Option Expr)
  | snippet (value : String) (pragma : Option LinePragma)
  | throwException (value : Option Expr)
  | tryCatchFinally (body : List Stmt) (catches : List CatchClause) (last : List Stmt)
  | variableDeclaration (name : String) (type : TypeReference) (init : Option Expr)
  | unrecognized (kind : String)

/-- Without a type it catches everything. -/
structure CatchClause where
  localName : String
  exceptionType : Option TypeReference
  statements : List Stmt

end

/-- An argument without a name, or with an empty one, is positional. -/
structure AttributeArgument where
  name : Option String
  value : Expr

/-- An attribute that is put on a declaration, with its arguments. -/
structure Attribute where
  name : String
  arguments : List AttributeArgument

/-- A parameter of a method, of a property or of a delegate. -/
structure Parameter where
  name : String
  type : TypeReference
  direction : Direction := .input
  customAttributes : List Attribute := []

/-- The declaration of a field. -/
structure FieldDeclaration where
  name : String
  attributes : MemberAttributes := {}
  type : TypeReference
  init : Option Expr := none
  customAttributes : List Attribute := []

/-- Without a return type the method returns nothing. -/
structure MethodDeclaration where
  name : String
  attributes : MemberAttributes := {}
  parameters : List Parameter := []
  returnType : Option TypeReference := none
  returnAttributes : List Attribute := []
  statements : List Stmt := []
  implementationTypes : List TypeReference := []
  privateImplementationType : Option TypeReference := none
  customAttributes : List Attribute := []

/-- The declaration of a constructor, with the arguments for a constructor of the base or of the
    class itself. -/
structure ConstructorDeclaration where
  attributes : MemberAttributes := {}
  parameters : List Parameter := []
  statements : List Stmt := []
  baseArguments : List Expr := []
  chainedArguments : List Expr := []
  customAttributes : List Attribute := []

/-- The parameters are those of an indexer. -/
structure PropertyDeclaration where
  name : String
  attributes : MemberAttributes := {}
  type : TypeReference
  parameters : List Parameter := []
  hasGet : Bool := false
  hasSet : Bool := false
  getStatements : List Stmt := []
  setStatements : List Stmt := []
  implementationTypes : List TypeReference := []
  privateImplementationType : Option TypeReference := none
  customAttributes : List Attribute := []

/-- The declaration of an event. -/
structure EventDeclaration where
  name : String
  attributes : MemberAttributes := {}
  type : TypeReference
  implementationTypes : List TypeReference := []
  privateImplementationType : Option TypeReference := none
  customAttributes : List Attribute := []

/-- The kinds of types. -/
inductive TypeKind where
  | classType
  | structType
  | interfaceType
  | enumType
  | delegateType (parameters : List Parameter) (returnType : Option TypeReference)

/-- The kind of a delegate. -/
def TypeKind.isDelegate : TypeKind → Bool
  | .delegateType _ _ => true
  | _ => false

mutual

/-- A member of a type, with the place it comes from. -/
structure Member where
  form : MemberForm
  source : Option SourceContext := none

/-- What a member of a type is. -/
inductive MemberForm where
  | field (declaration : FieldDeclaration)
  | method (declaration : MethodDeclaration)
  /-- The start of the program; it becomes a public static `Main`. -/
  | entryPoint (declaration : MethodDeclaration)
  | constructor (declaration : ConstructorDeclaration)
  | property (declaration : PropertyDeclaration)
  | event (declaration : EventDeclaration)
  | snippet (text : String) (pragma : Option LinePragma)
  | nestedType (declaration : TypeDeclaration)
  | unrecognized (kind : String)

/-- The declaration of a type with its members. -/
structure TypeDeclaration where
  name : String
  kind : TypeKind
  attributes : TypeAttributes := {}
  baseTypes : List TypeReference := []
  members : List Member := []
  customAttributes : List Attribute := []
  source : Option SourceContext := none

end

/-- A namespace with its types. -/
structure Namespace where
  name : String
  imports : List String := []
  types : List TypeDeclaration := []
  source : Option SourceContext := none

/-- A unit that is source text as it stands. -/
structure UnitSnippet where
  value : String
  pragma : Option LinePragma

/-- A whole code tree. The symbols are absent if the front end does not know them. -/
structure CompileUnit where
  namespaces : List Namespace := []
  referencedAssemblies : List String := []
  assemblyAttributes : List Attribute := []
  definedSymbols : Option (List String) := none
  snippet : Option UnitSnippet := none

/-- The unit is source text as it stands. -/
def CompileUnit.isSnippet (u : CompileUnit) : Bool := u.snippet.isSome

/-! Nodes without a source -/

/-- The type of a name. -/
def TypeReference.named (name : String) : TypeReference := ⟨name, none, 0⟩

/-- The arrays with a number of dimensions over an element type. -/
def TypeReference.arrayOf (element : TypeReference) (rank : UInt32) : TypeReference :=
  ⟨"", some element, rank⟩

/-- An expression without a place. -/
def ExprForm.node (form : ExprForm) : Expr := { form }

/-- A statement without a place. -/
def StmtForm.node (form : StmtForm) : Stmt := { form }

/-- A member without a place. -/
def MemberForm.node (form : MemberForm) : Member := { form }

end MiddleEnd.CodeTree
