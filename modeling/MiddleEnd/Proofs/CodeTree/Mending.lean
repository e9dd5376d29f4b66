/-
  Mended code trees. Members of unknown shape are left out, and a comment takes the place of each
  statement of unknown shape, in a list as well as around a loop or behind a label. Expressions stay
  as they are, for a hole marks where one of unknown shape stood. So the nodes of unknown shape in a
  mended tree are the expressions of unknown shape in the tree (`namespacesUnknown_mend`).
-/
import MiddleEnd.Proofs.CodeTree.Unknown

namespace MiddleEnd.CodeTree

section

-- the text of the comment for a kind
variable (note : String → String)

mutual

def Stmt.mend : Stmt → Stmt
  | ⟨form, source⟩ => ⟨form.mend, source⟩

def StmtForm.mend : StmtForm → StmtForm
  | .unrecognized kind => .comment (note kind)
  | .assign left right => .assign left right
  | .attachEvent event listener => .attachEvent event listener
  | .removeEvent event listener => .removeEvent event listener
  | .comment text => .comment text
  | .condition condition whenTrue whenFalse =>
    .condition condition (stmtsMend whenTrue) (stmtsMend whenFalse)
  | .expression expression => .expression expression
  | .goto label => .goto label
  | .iteration init test increment body =>
    .iteration (stmtOptionMend init) test (stmtOptionMend increment) (stmtsMend body)
  | .labeled label statement => .labeled label (stmtOptionMend statement)
  | .methodReturn value => .methodReturn value
  | .snippet value pragma => .snippet value pragma
  | .throwException value => .throwException value
  | .tryCatchFinally body catches last =>
    .tryCatchFinally (stmtsMend body) (catchesMend catches) (stmtsMend last)
  | .variableDeclaration name type init => .variableDeclaration name type init

def stmtsMend : List Stmt → List Stmt
  | [] => []
  | s :: ss => s.mend :: stmtsMend ss

def stmtOptionMend : Option Stmt → Option Stmt
  | none => none
  | some s => some s.mend

def catchesMend : List CatchClause → List CatchClause
  | [] => []
  | ⟨localName, exceptionType, statements⟩ :: cs =>
    ⟨localName, exceptionType, stmtsMend statements⟩ :: catchesMend cs

end

def MethodDeclaration.mend (d : MethodDeclaration) : MethodDeclaration :=
  { d with statements := stmtsMend note d.statements }

def ConstructorDeclaration.mend (d : ConstructorDeclaration) : ConstructorDeclaration :=
  { d with statements := stmtsMend note d.statements }

def PropertyDeclaration.mend (d : PropertyDeclaration) : PropertyDeclaration :=
  { d with
    getStatements := stmtsMend note d.getStatements
    setStatements := stmtsMend note d.setStatements }

mutual

def TypeDeclaration.mend : TypeDeclaration → TypeDeclaration
  | ⟨name, kind, modifiers, baseTypes, members, customAttributes, source⟩ =>
    ⟨name, kind, modifiers, baseTypes, membersMend members, customAttributes, source⟩

def membersMend : List Member → List Member
  | [] => []
  | m :: ms => m.mend.toList ++ membersMend ms

def Member.mend : Member → Option Member
  | ⟨.unrecognized _, _⟩ => none
  | ⟨.field d, source⟩ => some ⟨.field d, source⟩
  | ⟨.method d, source⟩ => some ⟨.method (d.mend note), source⟩
  | ⟨.entryPoint d, source⟩ => some ⟨.entryPoint (d.mend note), source⟩
  | ⟨.constructor d, source⟩ => some ⟨.constructor (d.mend note), source⟩
  | ⟨.property d, source⟩ => some ⟨.property (d.mend note), source⟩
  | ⟨.event d, source⟩ => some ⟨.event d, source⟩
  | ⟨.snippet text pragma, source⟩ => some ⟨.snippet text pragma, source⟩
  | ⟨.nestedType d, source⟩ => some ⟨.nestedType d.mend, source⟩

end

def Namespace.mend (n : Namespace) : Namespace :=
  { n with types := n.types.map (TypeDeclaration.mend note) }

def CompileUnit.mend (u : CompileUnit) : CompileUnit :=
  { u with namespaces := u.namespaces.map (Namespace.mend note) }

end

/-! ## What is left to report -/

def UnknownNode.isExpression (n : UnknownNode) : Bool := n.nodeClass = .expression

/-- The nodes that mending leaves. -/
def expressionsOf (nodes : List UnknownNode) : List UnknownNode :=
  nodes.filter UnknownNode.isExpression

@[simp]
theorem expressionsOf_nil : expressionsOf [] = [] := rfl

@[simp]
theorem expressionsOf_append (first rest : List UnknownNode) :
    expressionsOf (first ++ rest) = expressionsOf first ++ expressionsOf rest :=
  List.filter_append ..

@[simp]
theorem expressionsOf_flatMap {α : Type} (f : α → List UnknownNode) (as : List α) :
    expressionsOf (as.flatMap f) = as.flatMap fun a => expressionsOf (f a) := by
  induction as with
  | nil => rfl
  | cons a as ih => rw [List.flatMap_cons, List.flatMap_cons, expressionsOf_append, ih]

mutual

@[simp]
theorem Expr.expressionsOf_unknown : (e : Expr) → expressionsOf e.unknown = e.unknown
  | ⟨form, source⟩ => by
      rw [Expr.unknown]
      exact form.expressionsOf_unknown source

theorem ExprForm.expressionsOf_unknown (source : Option SourceContext) : (form : ExprForm) →
    expressionsOf (form.unknown source) = form.unknown source
  | .unrecognized kind => rfl
  | .arrayCreate _ initializers _ sizeExpr => by
      simp [ExprForm.unknown, expressionsOf_exprsUnknown initializers,
        expressionsOf_optionUnknown sizeExpr]
  | .arrayIndexer target indices => by
      simp [ExprForm.unknown, target.expressionsOf_unknown, expressionsOf_exprsUnknown indices]
  | .indexer target indices => by
      simp [ExprForm.unknown, target.expressionsOf_unknown, expressionsOf_exprsUnknown indices]
  | .binary left _ right => by
      simp [ExprForm.unknown, left.expressionsOf_unknown, right.expressionsOf_unknown]
  | .cast _ operand => by
      rw [ExprForm.unknown]
      exact operand.expressionsOf_unknown
  | .delegateCreate _ target _ => by
      rw [ExprForm.unknown]
      exact target.expressionsOf_unknown
  | .delegateInvoke target arguments => by
      simp [ExprForm.unknown, target.expressionsOf_unknown, expressionsOf_exprsUnknown arguments]
  | .direction _ operand => by
      rw [ExprForm.unknown]
      exact operand.expressionsOf_unknown
  | .eventRef target _ => by
      rw [ExprForm.unknown]
      exact target.expressionsOf_unknown
  | .fieldRef target _ => by
      rw [ExprForm.unknown]
      exact expressionsOf_optionUnknown target
  | .methodInvoke target _ arguments => by
      simp [ExprForm.unknown, expressionsOf_optionUnknown target,
        expressionsOf_exprsUnknown arguments]
  | .methodRef target _ => by
      rw [ExprForm.unknown]
      exact expressionsOf_optionUnknown target
  | .objectCreate _ arguments => by
      rw [ExprForm.unknown]
      exact expressionsOf_exprsUnknown arguments
  | .propertyRef target _ => by
      rw [ExprForm.unknown]
      exact target.expressionsOf_unknown
  | .argumentRef _ | .baseRef | .primitive _ | .setterValue | .snippet _ | .thisRef | .typeOf _
  | .typeRef _ | .variableRef _ => rfl

@[simp]
theorem expressionsOf_exprsUnknown : (es : List Expr) →
    expressionsOf (exprsUnknown es) = exprsUnknown es
  | [] => rfl
  | e :: es => by
      rw [exprsUnknown, expressionsOf_append, e.expressionsOf_unknown,
        expressionsOf_exprsUnknown es]

@[simp]
theorem expressionsOf_optionUnknown : (e : Option Expr) →
    expressionsOf (optionUnknown e) = optionUnknown e
  | none => rfl
  | some e => by
      rw [optionUnknown]
      exact e.expressionsOf_unknown

end

@[simp]
theorem expressionsOf_attributesUnknown (as : List Attribute) :
    expressionsOf (attributesUnknown as) = attributesUnknown as := by
  simp [attributesUnknown]

@[simp]
theorem expressionsOf_parametersUnknown (ps : List Parameter) :
    expressionsOf (parametersUnknown ps) = parametersUnknown ps := by
  simp [parametersUnknown]

variable (note : String → String)

mutual

theorem Stmt.unknown_mend : (s : Stmt) → (s.mend note).unknown = expressionsOf s.unknown
  | ⟨form, source⟩ => by
      rw [Stmt.mend, Stmt.unknown, Stmt.unknown]
      exact form.unknown_mend source

theorem StmtForm.unknown_mend (source : Option SourceContext) : (form : StmtForm) →
    (form.mend note).unknown source = expressionsOf (form.unknown source)
  | .unrecognized kind => by
      rw [StmtForm.mend, StmtForm.unknown, StmtForm.unknown]
      rfl
  | .condition condition whenTrue whenFalse => by
      simp [StmtForm.mend, StmtForm.unknown, stmtsUnknown_mend whenTrue,
        stmtsUnknown_mend whenFalse]
  | .iteration init test increment body => by
      simp [StmtForm.mend, StmtForm.unknown, stmtOptionUnknown_mend init,
        stmtOptionUnknown_mend increment, stmtsUnknown_mend body]
  | .labeled label statement => by
      rw [StmtForm.mend, StmtForm.unknown, StmtForm.unknown]
      exact stmtOptionUnknown_mend statement
  | .tryCatchFinally body catches last => by
      simp [StmtForm.mend, StmtForm.unknown, stmtsUnknown_mend body, catchesUnknown_mend catches,
        stmtsUnknown_mend last]
  | .assign _ _ | .attachEvent _ _ | .removeEvent _ _ | .expression _ | .methodReturn _
  | .throwException _ | .variableDeclaration _ _ _ | .comment _ | .goto _ | .snippet _ _ => by
      simp [StmtForm.mend, StmtForm.unknown]

theorem stmtsUnknown_mend : (ss : List Stmt) →
    stmtsUnknown (stmtsMend note ss) = expressionsOf (stmtsUnknown ss)
  | [] => rfl
  | s :: ss => by
      rw [stmtsMend, stmtsUnknown, stmtsUnknown, expressionsOf_append, s.unknown_mend,
        stmtsUnknown_mend ss]

theorem stmtOptionUnknown_mend : (s : Option Stmt) →
    stmtOptionUnknown (stmtOptionMend note s) = expressionsOf (stmtOptionUnknown s)
  | none => rfl
  | some s => by
      rw [stmtOptionMend, stmtOptionUnknown, stmtOptionUnknown]
      exact s.unknown_mend

theorem catchesUnknown_mend : (cs : List CatchClause) →
    catchesUnknown (catchesMend note cs) = expressionsOf (catchesUnknown cs)
  | [] => rfl
  | ⟨localName, exceptionType, statements⟩ :: cs => by
      rw [catchesMend, catchesUnknown, catchesUnknown, expressionsOf_append,
        stmtsUnknown_mend statements, catchesUnknown_mend cs]

end

theorem bodyUnknown_mend (inInterface : Bool) (modifiers : MemberAttributes)
    (statements : List Stmt) :
    bodyUnknown inInterface modifiers (stmtsMend note statements) =
      expressionsOf (bodyUnknown inInterface modifiers statements) := by
  unfold bodyUnknown
  split
  · rfl
  · exact stmtsUnknown_mend note statements

theorem MethodDeclaration.unknown_mend (inInterface : Bool) (modifiers : MemberAttributes)
    (d : MethodDeclaration) :
    (d.mend note).unknown inInterface modifiers =
      expressionsOf (d.unknown inInterface modifiers) := by
  simp [MethodDeclaration.mend, MethodDeclaration.unknown, bodyUnknown_mend]

theorem ConstructorDeclaration.unknown_mend (d : ConstructorDeclaration) :
    (d.mend note).unknown = expressionsOf d.unknown := by
  simp [ConstructorDeclaration.mend, ConstructorDeclaration.unknown,
    ConstructorDeclaration.passedOn, stmtsUnknown_mend]

theorem PropertyDeclaration.unknown_mend (inInterface : Bool) (d : PropertyDeclaration) :
    (d.mend note).unknown inInterface = expressionsOf (d.unknown inInterface) := by
  unfold PropertyDeclaration.mend PropertyDeclaration.unknown
  cases d.hasGet <;> cases d.hasSet <;> simp [bodyUnknown_mend]

theorem TypeKind.expressionsOf_unknown (kind : TypeKind) :
    expressionsOf kind.unknown = kind.unknown := by
  cases kind <;> simp [TypeKind.unknown]

mutual

theorem TypeDeclaration.unknown_mend : (d : TypeDeclaration) →
    (d.mend note).unknown = expressionsOf d.unknown
  | ⟨name, kind, modifiers, baseTypes, members, customAttributes, source⟩ => by
      rw [TypeDeclaration.mend, TypeDeclaration.unknown, TypeDeclaration.unknown,
        expressionsOf_append, expressionsOf_append, kind.expressionsOf_unknown,
        expressionsOf_attributesUnknown]
      split
      · rfl
      · rw [membersUnknown_mend kind.isInterface members]

theorem membersUnknown_mend (inInterface : Bool) : (ms : List Member) →
    membersUnknown inInterface (membersMend note ms) = expressionsOf (membersUnknown inInterface ms)
  | [] => rfl
  | m :: ms => by
      rw [membersMend, membersUnknown, expressionsOf_append, ← m.unknown_mend inInterface,
        ← membersUnknown_mend inInterface ms]
      cases m.mend note with
      | none => rfl
      | some m => simp [membersUnknown]

theorem Member.unknown_mend (inInterface : Bool) : (m : Member) →
    membersUnknown inInterface (m.mend note).toList = expressionsOf (m.unknown inInterface)
  | ⟨.unrecognized kind, source⟩ => rfl
  | ⟨.field d, _⟩ => by
      simp [Member.mend, membersUnknown, Member.unknown, FieldDeclaration.unknown]
  | ⟨.method d, _⟩ => by
      rw [Member.mend, Option.toList, membersUnknown, membersUnknown, List.append_nil,
        Member.unknown, Member.unknown]
      exact d.unknown_mend note inInterface d.attributes
  | ⟨.entryPoint d, _⟩ => by
      simp [Member.mend, membersUnknown, Member.unknown, MethodDeclaration.unknown_mend]
  | ⟨.constructor d, _⟩ => by
      simp [Member.mend, membersUnknown, Member.unknown, ConstructorDeclaration.unknown_mend]
  | ⟨.property d, _⟩ => by
      simp [Member.mend, membersUnknown, Member.unknown, PropertyDeclaration.unknown_mend]
  | ⟨.event d, _⟩ => by
      simp [Member.mend, membersUnknown, Member.unknown, EventDeclaration.unknown]
  | ⟨.snippet _ _, _⟩ => rfl
  | ⟨.nestedType d, _⟩ => by
      simp [Member.mend, membersUnknown, Member.unknown, d.unknown_mend]

end

theorem Namespace.unknown_mend (n : Namespace) :
    (n.mend note).unknown = expressionsOf n.unknown := by
  simp [Namespace.mend, Namespace.unknown, List.flatMap_map, TypeDeclaration.unknown_mend]

theorem namespacesUnknown_mend (namespaces : List Namespace) :
    namespacesUnknown (namespaces.map (Namespace.mend note)) =
      expressionsOf (namespacesUnknown namespaces) := by
  simp [namespacesUnknown, List.flatMap_map, Namespace.unknown_mend]

end MiddleEnd.CodeTree
