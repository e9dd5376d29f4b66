/-
  The leaves of a code tree that are not names: its constants and its nodes of unknown shape. All
  slots of the tree count, also those that lowering does not look at.
-/
import MiddleEnd.CodeTree.Basic
import MiddleEnd.Proofs.CodeTree.Unknown

namespace MiddleEnd.CodeTree

inductive Leaf where
  | constant (value : Primitive)
  | unknown (nodeClass : NodeClass) (kind : String)
  deriving DecidableEq

/-! ## Expressions and statements -/

mutual

def Expr.leaves : Expr → List Leaf
  | ⟨form, _⟩ => form.leaves

def ExprForm.leaves : ExprForm → List Leaf
  | .primitive value => [.constant value]
  | .unrecognized kind => [.unknown .expression kind]
  | .arrayCreate _ initializers _ sizeExpr => exprsLeaves initializers ++ exprOptionLeaves sizeExpr
  | .arrayIndexer target indices => target.leaves ++ exprsLeaves indices
  | .indexer target indices => target.leaves ++ exprsLeaves indices
  | .binary left _ right => left.leaves ++ right.leaves
  | .cast _ operand => operand.leaves
  | .delegateCreate _ target _ => target.leaves
  | .delegateInvoke target arguments => target.leaves ++ exprsLeaves arguments
  | .direction _ operand => operand.leaves
  | .eventRef target _ => target.leaves
  | .fieldRef target _ => exprOptionLeaves target
  | .methodInvoke target _ arguments => exprOptionLeaves target ++ exprsLeaves arguments
  | .methodRef target _ => exprOptionLeaves target
  | .objectCreate _ arguments => exprsLeaves arguments
  | .propertyRef target _ => target.leaves
  | .argumentRef _ | .baseRef | .setterValue | .snippet _ | .thisRef | .typeOf _ | .typeRef _
  | .variableRef _ => []

def exprsLeaves : List Expr → List Leaf
  | [] => []
  | e :: es => e.leaves ++ exprsLeaves es

def exprOptionLeaves : Option Expr → List Leaf
  | none => []
  | some e => e.leaves

end

mutual

def Stmt.leaves : Stmt → List Leaf
  | ⟨form, _⟩ => form.leaves

def StmtForm.leaves : StmtForm → List Leaf
  | .unrecognized kind => [.unknown .statement kind]
  | .assign left right => left.leaves ++ right.leaves
  | .attachEvent event listener => event.leaves ++ listener.leaves
  | .removeEvent event listener => event.leaves ++ listener.leaves
  | .condition condition whenTrue whenFalse =>
    condition.leaves ++ (stmtsLeaves whenTrue ++ stmtsLeaves whenFalse)
  | .expression expression => expression.leaves
  | .iteration init test increment body =>
    stmtOptionLeaves init ++
      (exprOptionLeaves test ++ (stmtOptionLeaves increment ++ stmtsLeaves body))
  | .labeled _ statement => stmtOptionLeaves statement
  | .methodReturn value => exprOptionLeaves value
  | .throwException value => exprOptionLeaves value
  | .tryCatchFinally body catches last =>
    stmtsLeaves body ++ (catchesLeaves catches ++ stmtsLeaves last)
  | .variableDeclaration _ _ init => exprOptionLeaves init
  | .comment _ | .goto _ | .snippet _ _ => []

def stmtsLeaves : List Stmt → List Leaf
  | [] => []
  | s :: ss => s.leaves ++ stmtsLeaves ss

def stmtOptionLeaves : Option Stmt → List Leaf
  | none => []
  | some s => s.leaves

def catchesLeaves : List CatchClause → List Leaf
  | [] => []
  | ⟨_, _, statements⟩ :: cs => stmtsLeaves statements ++ catchesLeaves cs

end

/-! ## Declarations -/

def Attribute.leaves (a : Attribute) : List Leaf :=
  a.arguments.flatMap fun argument => argument.value.leaves

def attributesLeaves (attributes : List Attribute) : List Leaf :=
  attributes.flatMap Attribute.leaves

def parametersLeaves (parameters : List Parameter) : List Leaf :=
  parameters.flatMap fun p => attributesLeaves p.customAttributes

def FieldDeclaration.leaves (d : FieldDeclaration) : List Leaf :=
  exprOptionLeaves d.init ++ attributesLeaves d.customAttributes

def MethodDeclaration.leaves (d : MethodDeclaration) : List Leaf :=
  parametersLeaves d.parameters ++ (attributesLeaves d.returnAttributes ++
    (stmtsLeaves d.statements ++ attributesLeaves d.customAttributes))

def ConstructorDeclaration.leaves (d : ConstructorDeclaration) : List Leaf :=
  parametersLeaves d.parameters ++ (stmtsLeaves d.statements ++ (exprsLeaves d.baseArguments ++
    (exprsLeaves d.chainedArguments ++ attributesLeaves d.customAttributes)))

def PropertyDeclaration.leaves (d : PropertyDeclaration) : List Leaf :=
  parametersLeaves d.parameters ++ (stmtsLeaves d.getStatements ++
    (stmtsLeaves d.setStatements ++ attributesLeaves d.customAttributes))

def EventDeclaration.leaves (d : EventDeclaration) : List Leaf :=
  attributesLeaves d.customAttributes

def TypeKind.leaves : TypeKind → List Leaf
  | .delegateType parameters _ => parametersLeaves parameters
  | .classType | .structType | .interfaceType | .enumType => []

mutual

def TypeDeclaration.leaves : TypeDeclaration → List Leaf
  | ⟨_, kind, _, _, members, customAttributes, _⟩ =>
    kind.leaves ++ (membersLeaves members ++ attributesLeaves customAttributes)

def membersLeaves : List Member → List Leaf
  | [] => []
  | m :: ms => m.leaves ++ membersLeaves ms

def Member.leaves : Member → List Leaf
  | ⟨form, _⟩ => form.leaves

def MemberForm.leaves : MemberForm → List Leaf
  | .unrecognized kind => [.unknown .member kind]
  | .field d => d.leaves
  | .method d => d.leaves
  | .entryPoint d => d.leaves
  | .constructor d => d.leaves
  | .property d => d.leaves
  | .event d => d.leaves
  | .snippet _ _ => []
  | .nestedType d => d.leaves

end

def CompileUnit.leaves (u : CompileUnit) : List Leaf :=
  (u.namespaces.flatMap fun n => n.types.flatMap TypeDeclaration.leaves) ++
    attributesLeaves u.assemblyAttributes

end MiddleEnd.CodeTree
