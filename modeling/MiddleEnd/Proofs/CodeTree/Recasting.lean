/-
  Recasting of code trees, node by node. A recasting says what becomes of sources and of nodes of
  unknown shape; every other node is built again from its parts.
-/
import MiddleEnd.CodeTree.Basic

namespace MiddleEnd.CodeTree

structure Recasting where
  source : Option SourceContext → Option SourceContext := fun source => source
  /-- An expression of unknown shape, by its kind. -/
  expr : String → ExprForm := .unrecognized
  stmt : String → StmtForm := .unrecognized
  member : String → MemberForm := .unrecognized

namespace Recasting

variable (f : Recasting)

/-! ## Expressions and statements -/

mutual

def onExpr : Expr → Expr
  | ⟨form, source⟩ => ⟨onExprForm form, f.source source⟩

def onExprForm : ExprForm → ExprForm
  | .argumentRef name => .argumentRef name
  | .arrayCreate type initializers size sizeExpr =>
    .arrayCreate type (onExprs initializers) size (onExprOption sizeExpr)
  | .arrayIndexer target indices => .arrayIndexer (onExpr target) (onExprs indices)
  | .baseRef => .baseRef
  | .binary left op right => .binary (onExpr left) op (onExpr right)
  | .cast type operand => .cast type (onExpr operand)
  | .delegateCreate type target method => .delegateCreate type (onExpr target) method
  | .delegateInvoke target arguments => .delegateInvoke (onExpr target) (onExprs arguments)
  | .direction direction operand => .direction direction (onExpr operand)
  | .eventRef target name => .eventRef (onExpr target) name
  | .fieldRef target name => .fieldRef (onExprOption target) name
  | .indexer target indices => .indexer (onExpr target) (onExprs indices)
  | .methodInvoke target method arguments =>
    .methodInvoke (onExprOption target) method (onExprs arguments)
  | .methodRef target method => .methodRef (onExprOption target) method
  | .objectCreate type arguments => .objectCreate type (onExprs arguments)
  | .primitive value => .primitive value
  | .propertyRef target name => .propertyRef (onExpr target) name
  | .setterValue => .setterValue
  | .snippet value => .snippet value
  | .thisRef => .thisRef
  | .typeOf type => .typeOf type
  | .typeRef type => .typeRef type
  | .variableRef name => .variableRef name
  | .unrecognized kind => f.expr kind

def onExprs : List Expr → List Expr
  | [] => []
  | e :: es => onExpr e :: onExprs es

def onExprOption : Option Expr → Option Expr
  | none => none
  | some e => some (onExpr e)

end

mutual

def onStmt : Stmt → Stmt
  | ⟨form, source⟩ => ⟨onStmtForm form, f.source source⟩

def onStmtForm : StmtForm → StmtForm
  | .assign left right => .assign (f.onExpr left) (f.onExpr right)
  | .attachEvent event listener => .attachEvent (f.onExpr event) (f.onExpr listener)
  | .removeEvent event listener => .removeEvent (f.onExpr event) (f.onExpr listener)
  | .comment text => .comment text
  | .condition condition whenTrue whenFalse =>
    .condition (f.onExpr condition) (onStmts whenTrue) (onStmts whenFalse)
  | .expression expression => .expression (f.onExpr expression)
  | .goto label => .goto label
  | .iteration init test increment body =>
    .iteration (onStmtOption init) (f.onExprOption test) (onStmtOption increment) (onStmts body)
  | .labeled label statement => .labeled label (onStmtOption statement)
  | .methodReturn value => .methodReturn (f.onExprOption value)
  | .snippet value pragma => .snippet value pragma
  | .throwException value => .throwException (f.onExprOption value)
  | .tryCatchFinally body catches last =>
    .tryCatchFinally (onStmts body) (onCatches catches) (onStmts last)
  | .variableDeclaration name type init => .variableDeclaration name type (f.onExprOption init)
  | .unrecognized kind => f.stmt kind

def onStmts : List Stmt → List Stmt
  | [] => []
  | s :: ss => onStmt s :: onStmts ss

def onStmtOption : Option Stmt → Option Stmt
  | none => none
  | some s => some (onStmt s)

def onCatches : List CatchClause → List CatchClause
  | [] => []
  | ⟨localName, exceptionType, statements⟩ :: cs =>
    ⟨localName, exceptionType, onStmts statements⟩ :: onCatches cs

end

/-! ## Declarations -/

def onArgument (a : AttributeArgument) : AttributeArgument := { a with value := f.onExpr a.value }

def onAttribute (a : Attribute) : Attribute := { a with arguments := a.arguments.map f.onArgument }

def onParameter (p : Parameter) : Parameter :=
  { p with customAttributes := p.customAttributes.map f.onAttribute }

def onField (d : FieldDeclaration) : FieldDeclaration :=
  { d with
    init := f.onExprOption d.init
    customAttributes := d.customAttributes.map f.onAttribute }

def onMethod (d : MethodDeclaration) : MethodDeclaration :=
  { d with
    parameters := d.parameters.map f.onParameter
    returnAttributes := d.returnAttributes.map f.onAttribute
    statements := f.onStmts d.statements
    customAttributes := d.customAttributes.map f.onAttribute }

def onConstructor (d : ConstructorDeclaration) : ConstructorDeclaration :=
  { d with
    parameters := d.parameters.map f.onParameter
    statements := f.onStmts d.statements
    baseArguments := f.onExprs d.baseArguments
    chainedArguments := f.onExprs d.chainedArguments
    customAttributes := d.customAttributes.map f.onAttribute }

def onProperty (d : PropertyDeclaration) : PropertyDeclaration :=
  { d with
    parameters := d.parameters.map f.onParameter
    getStatements := f.onStmts d.getStatements
    setStatements := f.onStmts d.setStatements
    customAttributes := d.customAttributes.map f.onAttribute }

def onEvent (d : EventDeclaration) : EventDeclaration :=
  { d with customAttributes := d.customAttributes.map f.onAttribute }

def onTypeKind : TypeKind → TypeKind
  | .classType => .classType
  | .structType => .structType
  | .interfaceType => .interfaceType
  | .enumType => .enumType
  | .delegateType parameters returnType => .delegateType (parameters.map f.onParameter) returnType

mutual

def onType : TypeDeclaration → TypeDeclaration
  | ⟨name, kind, attributes, baseTypes, members, customAttributes, source⟩ =>
    ⟨name, f.onTypeKind kind, attributes, baseTypes, onMembers members,
      customAttributes.map f.onAttribute, f.source source⟩

def onMembers : List Member → List Member
  | [] => []
  | m :: ms => onMember m :: onMembers ms

def onMember : Member → Member
  | ⟨form, source⟩ => ⟨onMemberForm form, f.source source⟩

def onMemberForm : MemberForm → MemberForm
  | .field d => .field (f.onField d)
  | .method d => .method (f.onMethod d)
  | .entryPoint d => .entryPoint (f.onMethod d)
  | .constructor d => .constructor (f.onConstructor d)
  | .property d => .property (f.onProperty d)
  | .event d => .event (f.onEvent d)
  | .snippet text pragma => .snippet text pragma
  | .nestedType d => .nestedType (onType d)
  | .unrecognized kind => f.member kind

end

def onNamespace (n : Namespace) : Namespace :=
  { n with types := n.types.map f.onType, source := f.source n.source }

def onUnit (u : CompileUnit) : CompileUnit :=
  { u with
    namespaces := u.namespaces.map f.onNamespace
    assemblyAttributes := u.assemblyAttributes.map f.onAttribute }

end Recasting

end MiddleEnd.CodeTree
