/-
  The nodes of unknown shape in a code tree, from left to right in the order in which lowering looks
  at the slots of a node. Some slots are not looked at: the members of a delegate, the statements of
  methods and accessors that an interface declares and that are not static, the statements of an
  accessor that a property does not have, and the arguments for the base constructor where another
  constructor of the class is called. Nodes of unknown shape in there do not count.
-/
import MiddleEnd.Diagnostic
import MiddleEnd.Lowering.Name

namespace MiddleEnd.CodeTree

/-- The open sets of a code tree. -/
inductive NodeClass where
  | member
  | statement
  | expression
  deriving DecidableEq, Repr

structure UnknownNode where
  nodeClass : NodeClass
  kind : String
  source : Option SourceContext
  deriving DecidableEq, Repr

/-- The one error that tells of the node. -/
def UnknownNode.diagnostic (n : UnknownNode) : Diagnostic where
  level := .error
  kind := .structural
  argument := n.kind
  source := n.source

/-! ## Expressions -/

mutual

def Expr.unknown : Expr → List UnknownNode
  | ⟨form, source⟩ => form.unknown source

/-- `source` is that of the node. -/
def ExprForm.unknown (source : Option SourceContext) : ExprForm → List UnknownNode
  | .unrecognized kind => [⟨.expression, kind, source⟩]
  | .arrayCreate _ initializers _ sizeExpr => exprsUnknown initializers ++ optionUnknown sizeExpr
  | .arrayIndexer target indices => target.unknown ++ exprsUnknown indices
  | .indexer target indices => target.unknown ++ exprsUnknown indices
  | .binary left _ right => left.unknown ++ right.unknown
  | .cast _ operand => operand.unknown
  | .delegateCreate _ target _ => target.unknown
  | .delegateInvoke target arguments => target.unknown ++ exprsUnknown arguments
  | .direction _ operand => operand.unknown
  | .eventRef target _ => target.unknown
  | .fieldRef target _ => optionUnknown target
  | .methodInvoke target _ arguments => optionUnknown target ++ exprsUnknown arguments
  | .methodRef target _ => optionUnknown target
  | .objectCreate _ arguments => exprsUnknown arguments
  | .propertyRef target _ => target.unknown
  | .argumentRef _ | .baseRef | .primitive _ | .setterValue | .snippet _ | .thisRef | .typeOf _
  | .typeRef _ | .variableRef _ => []

def exprsUnknown : List Expr → List UnknownNode
  | [] => []
  | e :: es => e.unknown ++ exprsUnknown es

def optionUnknown : Option Expr → List UnknownNode
  | none => []
  | some e => e.unknown

end

/-! ## Statements -/

mutual

def Stmt.unknown : Stmt → List UnknownNode
  | ⟨form, source⟩ => form.unknown source

def StmtForm.unknown (source : Option SourceContext) : StmtForm → List UnknownNode
  | .unrecognized kind => [⟨.statement, kind, source⟩]
  | .assign left right => left.unknown ++ right.unknown
  | .attachEvent event listener => event.unknown ++ listener.unknown
  | .removeEvent event listener => event.unknown ++ listener.unknown
  | .condition condition whenTrue whenFalse =>
    condition.unknown ++ (stmtsUnknown whenTrue ++ stmtsUnknown whenFalse)
  | .expression expression => expression.unknown
  | .iteration init test increment body =>
    stmtOptionUnknown init ++
      (optionUnknown test ++ (stmtOptionUnknown increment ++ stmtsUnknown body))
  | .labeled _ statement => stmtOptionUnknown statement
  | .methodReturn value => optionUnknown value
  | .throwException value => optionUnknown value
  | .tryCatchFinally body catches last =>
    stmtsUnknown body ++ (catchesUnknown catches ++ stmtsUnknown last)
  | .variableDeclaration _ _ init => optionUnknown init
  | .comment _ | .goto _ | .snippet _ _ => []

def stmtsUnknown : List Stmt → List UnknownNode
  | [] => []
  | s :: ss => s.unknown ++ stmtsUnknown ss

def stmtOptionUnknown : Option Stmt → List UnknownNode
  | none => []
  | some s => s.unknown

def catchesUnknown : List CatchClause → List UnknownNode
  | [] => []
  | ⟨_, _, statements⟩ :: cs => stmtsUnknown statements ++ catchesUnknown cs

end

/-! ## Declarations -/

def attributesUnknown (attributes : List Attribute) : List UnknownNode :=
  attributes.flatMap fun a => a.arguments.flatMap fun argument => argument.value.unknown

def parametersUnknown (parameters : List Parameter) : List UnknownNode :=
  parameters.flatMap fun p => attributesUnknown p.customAttributes

/-- What an interface declares has no statements that count, unless it is static. -/
def bodyUnknown (inInterface : Bool) (modifiers : MemberAttributes) (statements : List Stmt) :
    List UnknownNode :=
  if inInterface && !Lowering.isStatic modifiers then [] else stmtsUnknown statements

def FieldDeclaration.unknown (d : FieldDeclaration) : List UnknownNode :=
  optionUnknown d.init ++ attributesUnknown d.customAttributes

def MethodDeclaration.unknown (inInterface : Bool) (modifiers : MemberAttributes)
    (d : MethodDeclaration) : List UnknownNode :=
  parametersUnknown d.parameters ++ (attributesUnknown d.returnAttributes ++
    (bodyUnknown inInterface modifiers d.statements ++ attributesUnknown d.customAttributes))

/-- The arguments that are passed on to another constructor. -/
def ConstructorDeclaration.passedOn (d : ConstructorDeclaration) : List Expr :=
  if d.chainedArguments.isEmpty then d.baseArguments else d.chainedArguments

def ConstructorDeclaration.unknown (d : ConstructorDeclaration) : List UnknownNode :=
  exprsUnknown d.passedOn ++ (stmtsUnknown d.statements ++
    (parametersUnknown d.parameters ++ attributesUnknown d.customAttributes))

def PropertyDeclaration.unknown (inInterface : Bool) (d : PropertyDeclaration) :
    List UnknownNode :=
  parametersUnknown d.parameters ++
    ((if d.hasGet then bodyUnknown inInterface d.attributes d.getStatements else []) ++
      ((if d.hasSet then bodyUnknown inInterface d.attributes d.setStatements else []) ++
        attributesUnknown d.customAttributes))

def EventDeclaration.unknown (d : EventDeclaration) : List UnknownNode :=
  attributesUnknown d.customAttributes

/-- The parameters of a delegate. -/
def TypeKind.unknown : TypeKind → List UnknownNode
  | .delegateType parameters _ => parametersUnknown parameters
  | .classType | .structType | .interfaceType | .enumType => []

def TypeKind.isInterface : TypeKind → Bool
  | .interfaceType => true
  | _ => false

mutual

def TypeDeclaration.unknown : TypeDeclaration → List UnknownNode
  | ⟨_, kind, _, _, members, customAttributes, _⟩ =>
    kind.unknown ++ (attributesUnknown customAttributes ++
      if kind.isDelegate then [] else membersUnknown kind.isInterface members)

def membersUnknown (inInterface : Bool) : List Member → List UnknownNode
  | [] => []
  | m :: ms => m.unknown inInterface ++ membersUnknown inInterface ms

def Member.unknown (inInterface : Bool) : Member → List UnknownNode
  | ⟨.unrecognized kind, source⟩ => [⟨.member, kind, source⟩]
  | ⟨.field d, _⟩ => d.unknown
  | ⟨.method d, _⟩ => d.unknown inInterface d.attributes
  | ⟨.entryPoint d, _⟩ => d.unknown inInterface .publicStatic
  | ⟨.constructor d, _⟩ => d.unknown
  | ⟨.property d, _⟩ => d.unknown inInterface
  | ⟨.event d, _⟩ => d.unknown
  | ⟨.snippet _ _, _⟩ => []
  | ⟨.nestedType d, _⟩ => d.unknown

end

def Namespace.unknown (n : Namespace) : List UnknownNode := n.types.flatMap TypeDeclaration.unknown

def namespacesUnknown (namespaces : List Namespace) : List UnknownNode :=
  namespaces.flatMap Namespace.unknown

def CompileUnit.unknown (u : CompileUnit) : List UnknownNode :=
  attributesUnknown u.assemblyAttributes ++ namespacesUnknown u.namespaces

end MiddleEnd.CodeTree
