/-
  What is written of a node of unknown shape is only its kind. Under some kinds such a bare node is
  of known shape, because every field of that shape may be left out. The rereading of a tree has the
  known shape in place of each of these nodes; it is the tree itself exactly if there are none
  (`onUnit_rereading_iff`).
-/
import MiddleEnd.Proofs.CodeTree.Leaves
import MiddleEnd.Proofs.CodeTree.Recasting

namespace MiddleEnd.CodeTree

/-- The kinds under which a node without fields is of known shape. -/
def NodeClass.bareKinds : NodeClass → List String
  | .member => ["Constructor"]
  | .statement =>
    ["Comment", "Iteration", "MethodReturn", "ThrowException", "TryCatchFinally"]
  | .expression => ["BaseReference", "PropertySetValueReference", "ThisReference"]

/-- The expression that a kind without fields stands for. -/
def ExprForm.ofBare : String → ExprForm
  | "BaseReference" => .baseRef
  | "PropertySetValueReference" => .setterValue
  | "ThisReference" => .thisRef
  | kind => .unrecognized kind

def StmtForm.ofBare : String → StmtForm
  | "Comment" => .comment ""
  | "Iteration" => .iteration none none none []
  | "MethodReturn" => .methodReturn none
  | "ThrowException" => .throwException none
  | "TryCatchFinally" => .tryCatchFinally [] [] []
  | kind => .unrecognized kind

def MemberForm.ofBare : String → MemberForm
  | "Constructor" => .constructor {}
  | kind => .unrecognized kind

/-- Puts the known shape in place of nodes that are bare under its kind. -/
def rereading : Recasting where
  expr := .ofBare
  stmt := .ofBare
  member := .ofBare

/-- Bare, the leaf is still a node of unknown shape. -/
def Leaf.Settled : Leaf → Prop
  | .constant _ => True
  | .unknown nodeClass kind => kind ∉ nodeClass.bareKinds

instance : DecidablePred Leaf.Settled
  | .constant _ => .isTrue trivial
  | .unknown nodeClass kind => inferInstanceAs (Decidable (kind ∉ nodeClass.bareKinds))

theorem ExprForm.ofBare_iff (kind : String) :
    ExprForm.ofBare kind = .unrecognized kind ↔ kind ∉ NodeClass.expression.bareKinds := by
  unfold ExprForm.ofBare
  split <;> simp_all [NodeClass.bareKinds]

theorem StmtForm.ofBare_iff (kind : String) :
    StmtForm.ofBare kind = .unrecognized kind ↔ kind ∉ NodeClass.statement.bareKinds := by
  unfold StmtForm.ofBare
  split <;> simp_all [NodeClass.bareKinds]

theorem MemberForm.ofBare_iff (kind : String) :
    MemberForm.ofBare kind = .unrecognized kind ↔ kind ∉ NodeClass.member.bareKinds := by
  unfold MemberForm.ofBare
  split <;> simp_all [NodeClass.bareKinds]

/-! ## Expressions and statements -/

open Recasting

mutual

theorem onExpr_rereading_iff : (e : Expr) →
    (rereading.onExpr e = e ↔ ∀ leaf ∈ e.leaves, leaf.Settled)
  | ⟨form, source⟩ => by
      rw [onExpr, Expr.leaves, ← onExprForm_rereading_iff form]
      simp [rereading]

theorem onExprForm_rereading_iff : (form : ExprForm) →
    (rereading.onExprForm form = form ↔ ∀ leaf ∈ form.leaves, leaf.Settled)
  | .unrecognized kind => by
      simpa [onExprForm, ExprForm.leaves, Leaf.Settled, rereading] using ExprForm.ofBare_iff kind
  | .arrayCreate _ initializers _ sizeExpr => by
      simp [onExprForm, ExprForm.leaves, or_imp, forall_and, onExprs_rereading_iff initializers,
        onExprOption_rereading_iff sizeExpr]
  | .arrayIndexer target indices => by
      simp [onExprForm, ExprForm.leaves, or_imp, forall_and, onExpr_rereading_iff target,
        onExprs_rereading_iff indices]
  | .indexer target indices => by
      simp [onExprForm, ExprForm.leaves, or_imp, forall_and, onExpr_rereading_iff target,
        onExprs_rereading_iff indices]
  | .binary left _ right => by
      simp [onExprForm, ExprForm.leaves, or_imp, forall_and, onExpr_rereading_iff left,
        onExpr_rereading_iff right]
  | .cast _ operand => by simp [onExprForm, ExprForm.leaves, onExpr_rereading_iff operand]
  | .delegateCreate _ target _ => by
      simp [onExprForm, ExprForm.leaves, onExpr_rereading_iff target]
  | .delegateInvoke target arguments => by
      simp [onExprForm, ExprForm.leaves, or_imp, forall_and, onExpr_rereading_iff target,
        onExprs_rereading_iff arguments]
  | .direction _ operand => by simp [onExprForm, ExprForm.leaves, onExpr_rereading_iff operand]
  | .eventRef target _ => by simp [onExprForm, ExprForm.leaves, onExpr_rereading_iff target]
  | .fieldRef target _ => by
      simp [onExprForm, ExprForm.leaves, onExprOption_rereading_iff target]
  | .methodInvoke target _ arguments => by
      simp [onExprForm, ExprForm.leaves, or_imp, forall_and, onExprOption_rereading_iff target,
        onExprs_rereading_iff arguments]
  | .methodRef target _ => by
      simp [onExprForm, ExprForm.leaves, onExprOption_rereading_iff target]
  | .objectCreate _ arguments => by
      simp [onExprForm, ExprForm.leaves, onExprs_rereading_iff arguments]
  | .propertyRef target _ => by simp [onExprForm, ExprForm.leaves, onExpr_rereading_iff target]
  | .primitive _ => by simp [onExprForm, ExprForm.leaves, Leaf.Settled]
  | .argumentRef _ | .baseRef | .setterValue | .snippet _ | .thisRef | .typeOf _ | .typeRef _
  | .variableRef _ => by simp [onExprForm, ExprForm.leaves]

theorem onExprs_rereading_iff : (es : List Expr) →
    (rereading.onExprs es = es ↔ ∀ leaf ∈ exprsLeaves es, leaf.Settled)
  | [] => by simp [onExprs, exprsLeaves]
  | e :: es => by
      simp [onExprs, exprsLeaves, or_imp, forall_and, onExpr_rereading_iff e,
        onExprs_rereading_iff es]

theorem onExprOption_rereading_iff : (e : Option Expr) →
    (rereading.onExprOption e = e ↔ ∀ leaf ∈ exprOptionLeaves e, leaf.Settled)
  | none => by simp [onExprOption, exprOptionLeaves]
  | some e => by simp [onExprOption, exprOptionLeaves, onExpr_rereading_iff e]

end

mutual

theorem onStmt_rereading_iff : (s : Stmt) →
    (rereading.onStmt s = s ↔ ∀ leaf ∈ s.leaves, leaf.Settled)
  | ⟨form, source⟩ => by
      rw [onStmt, Stmt.leaves, ← onStmtForm_rereading_iff form]
      simp [rereading]

theorem onStmtForm_rereading_iff : (form : StmtForm) →
    (rereading.onStmtForm form = form ↔ ∀ leaf ∈ form.leaves, leaf.Settled)
  | .unrecognized kind => by
      simpa [onStmtForm, StmtForm.leaves, Leaf.Settled, rereading] using StmtForm.ofBare_iff kind
  | .assign left right => by
      simp [onStmtForm, StmtForm.leaves, or_imp, forall_and, onExpr_rereading_iff]
  | .attachEvent event listener => by
      simp [onStmtForm, StmtForm.leaves, or_imp, forall_and, onExpr_rereading_iff]
  | .removeEvent event listener => by
      simp [onStmtForm, StmtForm.leaves, or_imp, forall_and, onExpr_rereading_iff]
  | .condition condition whenTrue whenFalse => by
      simp [onStmtForm, StmtForm.leaves, or_imp, forall_and, onExpr_rereading_iff,
        onStmts_rereading_iff whenTrue, onStmts_rereading_iff whenFalse]
  | .expression expression => by simp [onStmtForm, StmtForm.leaves, onExpr_rereading_iff]
  | .iteration init test increment body => by
      simp [onStmtForm, StmtForm.leaves, or_imp, forall_and, onExprOption_rereading_iff,
        onStmtOption_rereading_iff init, onStmtOption_rereading_iff increment,
        onStmts_rereading_iff body]
  | .labeled _ statement => by
      simp [onStmtForm, StmtForm.leaves, onStmtOption_rereading_iff statement]
  | .methodReturn value => by simp [onStmtForm, StmtForm.leaves, onExprOption_rereading_iff]
  | .throwException value => by simp [onStmtForm, StmtForm.leaves, onExprOption_rereading_iff]
  | .tryCatchFinally body catches last => by
      simp [onStmtForm, StmtForm.leaves, or_imp, forall_and, onStmts_rereading_iff body,
        onCatches_rereading_iff catches, onStmts_rereading_iff last]
  | .variableDeclaration _ _ init => by
      simp [onStmtForm, StmtForm.leaves, onExprOption_rereading_iff]
  | .comment _ | .goto _ | .snippet _ _ => by simp [onStmtForm, StmtForm.leaves]

theorem onStmts_rereading_iff : (ss : List Stmt) →
    (rereading.onStmts ss = ss ↔ ∀ leaf ∈ stmtsLeaves ss, leaf.Settled)
  | [] => by simp [onStmts, stmtsLeaves]
  | s :: ss => by
      simp [onStmts, stmtsLeaves, or_imp, forall_and, onStmt_rereading_iff s,
        onStmts_rereading_iff ss]

theorem onStmtOption_rereading_iff : (s : Option Stmt) →
    (rereading.onStmtOption s = s ↔ ∀ leaf ∈ stmtOptionLeaves s, leaf.Settled)
  | none => by simp [onStmtOption, stmtOptionLeaves]
  | some s => by simp [onStmtOption, stmtOptionLeaves, onStmt_rereading_iff s]

theorem onCatches_rereading_iff : (cs : List CatchClause) →
    (rereading.onCatches cs = cs ↔ ∀ leaf ∈ catchesLeaves cs, leaf.Settled)
  | [] => by simp [onCatches, catchesLeaves]
  | ⟨localName, exceptionType, statements⟩ :: cs => by
      simp [onCatches, catchesLeaves, or_imp, forall_and, onStmts_rereading_iff statements,
        onCatches_rereading_iff cs]

end

/-! ## Declarations -/

/-- A list is recast to itself exactly if its items are. -/
theorem map_rereading_iff {α : Type} {f : α → α} {leaves : α → List Leaf} (as : List α)
    (h : ∀ a ∈ as, (f a = a ↔ ∀ leaf ∈ leaves a, leaf.Settled)) :
    as.map f = as ↔ ∀ leaf ∈ as.flatMap leaves, leaf.Settled := by
  induction as with
  | nil => simp
  | cons a as ih =>
      rw [List.forall_mem_cons] at h
      rw [List.map_cons, List.cons.injEq, List.flatMap_cons, List.forall_mem_append, h.1, ih h.2]

theorem onAttribute_rereading_iff (a : Attribute) :
    rereading.onAttribute a = a ↔ ∀ leaf ∈ a.leaves, leaf.Settled := by
  have harguments := map_rereading_iff (f := rereading.onArgument) a.arguments
    fun argument _ => show _ ↔ ∀ leaf ∈ argument.value.leaves, leaf.Settled by
      rw [← onExpr_rereading_iff]
      obtain ⟨name, value⟩ := argument
      simp [onArgument]
  obtain ⟨name, arguments⟩ := a
  simpa [onAttribute, Attribute.leaves] using harguments

theorem onAttributes_rereading_iff (as : List Attribute) :
    as.map rereading.onAttribute = as ↔ ∀ leaf ∈ attributesLeaves as, leaf.Settled :=
  map_rereading_iff as fun a _ => onAttribute_rereading_iff a

theorem onParameters_rereading_iff (ps : List Parameter) :
    ps.map rereading.onParameter = ps ↔ ∀ leaf ∈ parametersLeaves ps, leaf.Settled := by
  refine map_rereading_iff ps fun p _ => ?_
  rw [← onAttributes_rereading_iff]
  obtain ⟨name, type, direction, customAttributes⟩ := p
  simp [onParameter]

theorem onField_rereading_iff (d : FieldDeclaration) :
    rereading.onField d = d ↔ ∀ leaf ∈ d.leaves, leaf.Settled := by
  obtain ⟨name, attributes, type, init, customAttributes⟩ := d
  simp [onField, FieldDeclaration.leaves, or_imp, forall_and, onExprOption_rereading_iff,
    onAttributes_rereading_iff]

theorem onMethod_rereading_iff (d : MethodDeclaration) :
    rereading.onMethod d = d ↔ ∀ leaf ∈ d.leaves, leaf.Settled := by
  obtain ⟨name, attributes, parameters, returnType, returnAttributes, statements,
    implementationTypes, privateImplementationType, customAttributes⟩ := d
  simp [onMethod, MethodDeclaration.leaves, or_imp, forall_and, onStmts_rereading_iff,
    onParameters_rereading_iff, onAttributes_rereading_iff]

theorem onConstructor_rereading_iff (d : ConstructorDeclaration) :
    rereading.onConstructor d = d ↔ ∀ leaf ∈ d.leaves, leaf.Settled := by
  obtain ⟨attributes, parameters, statements, baseArguments, chainedArguments,
    customAttributes⟩ := d
  simp [onConstructor, ConstructorDeclaration.leaves, or_imp, forall_and, onStmts_rereading_iff,
    onExprs_rereading_iff, onParameters_rereading_iff, onAttributes_rereading_iff]

theorem onProperty_rereading_iff (d : PropertyDeclaration) :
    rereading.onProperty d = d ↔ ∀ leaf ∈ d.leaves, leaf.Settled := by
  obtain ⟨name, attributes, type, parameters, hasGet, hasSet, getStatements, setStatements,
    implementationTypes, privateImplementationType, customAttributes⟩ := d
  simp [onProperty, PropertyDeclaration.leaves, or_imp, forall_and, onStmts_rereading_iff,
    onParameters_rereading_iff, onAttributes_rereading_iff]

theorem onEvent_rereading_iff (d : EventDeclaration) :
    rereading.onEvent d = d ↔ ∀ leaf ∈ d.leaves, leaf.Settled := by
  obtain ⟨name, attributes, type, implementationTypes, privateImplementationType,
    customAttributes⟩ := d
  simp [onEvent, EventDeclaration.leaves, onAttributes_rereading_iff]

theorem onTypeKind_rereading_iff (kind : TypeKind) :
    rereading.onTypeKind kind = kind ↔ ∀ leaf ∈ kind.leaves, leaf.Settled := by
  cases kind <;> simp [onTypeKind, TypeKind.leaves, onParameters_rereading_iff]

mutual

theorem onType_rereading_iff : (d : TypeDeclaration) →
    (rereading.onType d = d ↔ ∀ leaf ∈ d.leaves, leaf.Settled)
  | ⟨name, kind, attributes, baseTypes, members, customAttributes, source⟩ => by
      simp [onType, TypeDeclaration.leaves, or_imp, forall_and, onTypeKind_rereading_iff,
        onMembers_rereading_iff members, onAttributes_rereading_iff]
      simp [rereading]

theorem onMembers_rereading_iff : (ms : List Member) →
    (rereading.onMembers ms = ms ↔ ∀ leaf ∈ membersLeaves ms, leaf.Settled)
  | [] => by simp [onMembers, membersLeaves]
  | m :: ms => by
      simp [onMembers, membersLeaves, or_imp, forall_and, onMember_rereading_iff m,
        onMembers_rereading_iff ms]

theorem onMember_rereading_iff : (m : Member) →
    (rereading.onMember m = m ↔ ∀ leaf ∈ m.leaves, leaf.Settled)
  | ⟨form, source⟩ => by
      rw [onMember, Member.leaves, ← onMemberForm_rereading_iff form]
      simp [rereading]

theorem onMemberForm_rereading_iff : (form : MemberForm) →
    (rereading.onMemberForm form = form ↔ ∀ leaf ∈ form.leaves, leaf.Settled)
  | .unrecognized kind => by
      simpa [onMemberForm, MemberForm.leaves, Leaf.Settled, rereading] using
        MemberForm.ofBare_iff kind
  | .field d => by simp [onMemberForm, MemberForm.leaves, onField_rereading_iff]
  | .method d => by simp [onMemberForm, MemberForm.leaves, onMethod_rereading_iff]
  | .entryPoint d => by simp [onMemberForm, MemberForm.leaves, onMethod_rereading_iff]
  | .constructor d => by simp [onMemberForm, MemberForm.leaves, onConstructor_rereading_iff]
  | .property d => by simp [onMemberForm, MemberForm.leaves, onProperty_rereading_iff]
  | .event d => by simp [onMemberForm, MemberForm.leaves, onEvent_rereading_iff]
  | .snippet _ _ => by simp [onMemberForm, MemberForm.leaves]
  | .nestedType d => by simp [onMemberForm, MemberForm.leaves, onType_rereading_iff d]

end

/-- The rereading of a unit is the unit exactly if no node of unknown shape is of a bare kind. -/
theorem onUnit_rereading_iff (u : CompileUnit) :
    rereading.onUnit u = u ↔ ∀ leaf ∈ u.leaves, leaf.Settled := by
  have hnamespaces := map_rereading_iff (f := rereading.onNamespace) u.namespaces
    fun n _ => show _ ↔ ∀ leaf ∈ n.types.flatMap TypeDeclaration.leaves, leaf.Settled by
      rw [← map_rereading_iff n.types fun d _ => onType_rereading_iff d]
      obtain ⟨name, imports, types, source⟩ := n
      simp [onNamespace]
      simp [rereading]
  rw [CompileUnit.leaves, List.forall_mem_append, ← hnamespaces, ← onAttributes_rereading_iff]
  obtain ⟨namespaces, referencedAssemblies, assemblyAttributes, definedSymbols, snippet⟩ := u
  simp [onUnit]

end MiddleEnd.CodeTree
