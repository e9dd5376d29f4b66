/-
  A node of unknown shape does no harm to what stands around it. Lowering a tree and lowering the
  mended tree give the same unit and the same module, and the sinks differ by the entries of the
  members and statements that mending takes out, and by nothing else (`unit_mend`).
-/
import MiddleEnd.Proofs.CodeTree.Mending
import MiddleEnd.Proofs.Lowering.Accounting

namespace MiddleEnd

namespace Lower.Alike

variable {σ α β : Type}

theorem mapM_map {f : α → Lower σ β} {g : α → α} (h : ∀ a, Alike (f a) (f (g a)))
    (as : List α) : Alike (as.mapM f) ((as.map g).mapM f) := by
  induction as with
  | nil =>
      rw [List.map_nil, List.mapM_nil]
      exact pure []
  | cons a as ih =>
      rw [List.map_cons, List.mapM_cons, List.mapM_cons]
      exact bind (h a) fun _ => bind ih fun _ => pure _

end Lower.Alike

namespace Lowering

open Lower CodeTree

variable {σ : Type} (host : Host σ) (note : String → String)

/-! ## Statements -/

mutual

theorem stmt_mend : (s : CodeTree.Stmt) → Alike (stmt host s) (stmt host (s.mend note))
  | ⟨form, source⟩ => by
      rw [Stmt.mend, stmt, stmt]
      exact stmtForm_mend source form

theorem stmts_mend : (ss : List CodeTree.Stmt) →
    Alike (stmts host ss) (stmts host (stmtsMend note ss))
  | [] => .pure []
  | s :: ss => by
      rw [stmtsMend, stmts, stmts]
      exact .bind (stmt_mend s) fun _ => .bind (stmts_mend ss) fun _ => .pure _

theorem stmtOption_mend : (s : Option CodeTree.Stmt) →
    Alike (stmtOption host s) (stmtOption host (stmtOptionMend note s))
  | none => .pure none
  | some s => by
      rw [stmtOptionMend, stmtOption, stmtOption]
      exact stmt_mend s

theorem catchers_mend : (cs : List CodeTree.CatchClause) →
    Alike (catchers host cs) (catchers host (catchesMend note cs))
  | [] => .pure []
  | ⟨localName, exceptionType, statements⟩ :: cs => by
      rw [catchesMend, catchers, catchers]
      exact .bind (stmts_mend statements) fun _ => .bind (catchers_mend cs) fun _ => .pure _

theorem stmtForm_mend (source : Option SourceContext) : (form : CodeTree.StmtForm) →
    Alike (stmtForm host source form) (stmtForm host source (form.mend note))
  | .unrecognized kind => by
      -- the report is all that the comment does not do
      rw [StmtForm.mend, stmtForm, stmtForm]
      exact .bind (.unexpected kind source) fun _ => .pure none
  | .condition condition whenTrue whenFalse => by
      rw [StmtForm.mend, stmtForm, stmtForm]
      exact .bind (operand_reports host condition).alike fun _ =>
        .bind (stmts_mend whenTrue) fun _ => .bind (stmts_mend whenFalse) fun _ => .pure _
  | .iteration init test increment body => by
      rw [StmtForm.mend, stmtForm, stmtForm]
      exact .bind (stmtOption_mend init) fun _ =>
        .bind (exprOption_reports host test).alike fun _ =>
        .bind (stmtOption_mend increment) fun _ => .bind (stmts_mend body) fun _ => .pure _
  | .labeled label statement => by
      rw [StmtForm.mend, stmtForm, stmtForm]
      exact .bind (stmtOption_mend statement) fun _ => .pure _
  | .tryCatchFinally body catches last => by
      -- a comment in place of a statement keeps an empty list empty and no other
      have hempty : (stmtsMend note last).isEmpty = last.isEmpty := by
        cases last with
        | nil => rfl
        | cons s ss => rw [stmtsMend]; rfl
      rw [StmtForm.mend, stmtForm, stmtForm, hempty]
      exact .bind (stmts_mend body) fun _ => .bind (catchers_mend catches) fun _ =>
        .bind (stmts_mend last) fun _ => .pure _
  | .assign _ _ | .attachEvent _ _ | .removeEvent _ _ | .comment _ | .expression _ | .goto _
  | .methodReturn _ | .snippet _ _ | .throwException _ | .variableDeclaration _ _ _ => by
      rw [StmtForm.mend]
      exact (stmtForm_reports host source _).alike

end

/-! ## Members -/

section

variable (owner : Owner) (source : Option SourceContext)

theorem bodyOf_mend (flags : MethodFlags) (statements : List CodeTree.Stmt) :
    Alike (bodyOf host owner flags statements)
      (bodyOf host owner flags (stmtsMend note statements)) := by
  unfold bodyOf
  split
  · exact .bind (.bind (stmts_mend host note statements) fun _ => .pure _) fun _ => .pure _
  · exact .pure none

theorem methodMember_mend (name : String) (modifiers : CodeTree.MemberAttributes)
    (d : CodeTree.MethodDeclaration) :
    Alike (methodMember host owner source name modifiers d)
      (methodMember host owner source name modifiers (d.mend note)) :=
  .bind (parameters_reports host d.parameters).alike fun _ =>
    .bind (attributes_reports host d.returnAttributes).alike fun _ =>
      .bind (bodyOf_mend host note owner _ d.statements) fun _ =>
        .bind (attributes_reports host d.customAttributes).alike fun _ => .pure _

theorem constructorMember_mend (d : CodeTree.ConstructorDeclaration) :
    Alike (constructorMember host owner source d)
      (constructorMember host owner source (d.mend note)) := by
  rw [constructorMember_eq, constructorMember_eq]
  exact .bind (chainArguments_reports host d.passedOn).alike fun _ =>
    .bind (stmts_mend host note d.statements) fun _ =>
      .bind (parameters_reports host d.parameters).alike fun _ =>
        .bind (attributes_reports host d.customAttributes).alike fun _ => .pure _

theorem accessor_mend (declared : Bool) (name : String) (method : Method)
    (statements : List CodeTree.Stmt) :
    Alike (accessor host owner source declared name method statements)
      (accessor host owner source declared name method (stmtsMend note statements)) := by
  unfold accessor
  split
  · exact .bind (bodyOf_mend host note owner method.flags statements) fun _ => .pure _
  · exact .pure []

theorem propertyMembers_mend (position : Nat) (d : CodeTree.PropertyDeclaration) :
    Alike (propertyMembers host owner source position d)
      (propertyMembers host owner source position (d.mend note)) :=
  .bind (parameters_reports host d.parameters).alike fun _ =>
    .bind (accessor_mend host note owner source d.hasGet _ _ d.getStatements) fun _ =>
      .bind (accessor_mend host note owner source d.hasSet _ _ d.setStatements) fun _ =>
        .bind (attributes_reports host d.customAttributes).alike fun _ => .pure _

end

/-! ## Types -/

/-- A member that may have been left out. -/
def optionMember (owner : Owner) (position : Nat) : Option CodeTree.Member → Lower σ (List Member)
  | none => return []
  | some m => member host owner position m

mutual

theorem typeDeclaration_mend (ns : String) (outer : Option TypeId) :
    (d : CodeTree.TypeDeclaration) →
      Alike (typeDeclaration host ns outer d) (typeDeclaration host ns outer (d.mend note))
  | ⟨name, kind, modifiers, baseTypes, declared, customAttributes, source⟩ => by
      rw [TypeDeclaration.mend, typeDeclaration, typeDeclaration]
      refine .bind (typeKind_reports host baseTypes kind).alike fun _ => ?_
      refine .bind (attributes_reports host customAttributes).alike fun _ => ?_
      refine .get fun s t h => ?_
      rw [h]
      refine .bind (.addType _) fun id => ?_
      split
      · exact .pure id
      · exact .bind (members_mend (ownerOf id kind) 0 declared) fun _ =>
          .bind (.emit _ _) fun _ => .bind (.modifyModule _) fun _ => .pure id

theorem members_mend (owner : Owner) (position : Nat) : (ds : List CodeTree.Member) →
    Alike (members host owner position ds) (members host owner position (membersMend note ds))
  | [] => .pure []
  | d :: ds => by
      rw [membersMend, members]
      have hfirst := member_mend owner position d
      cases hd : d.mend note with
      | none =>
          -- what is left out gives no members, so the positions behind it stay the same
          rw [hd] at hfirst
          show Alike _ (members host owner position (membersMend note ds))
          have hrest := Alike.bind hfirst fun first =>
            Alike.bind (members_mend owner (position + first.length) ds) fun rest =>
              (.pure (first ++ rest) : Alike _ (pure (first ++ rest) : Lower σ (List Member)))
          simpa only [optionMember, pure_bind, List.length_nil, Nat.add_zero, List.nil_append,
            bind_pure] using hrest
      | some d' =>
          rw [hd] at hfirst
          show Alike _ (members host owner position (d' :: membersMend note ds))
          rw [members]
          exact .bind hfirst fun first =>
            .bind (members_mend owner (position + first.length) ds) fun _ => .pure _

theorem member_mend (owner : Owner) (position : Nat) : (d : CodeTree.Member) →
    Alike (member host owner position d) (optionMember host owner position (d.mend note))
  | ⟨.unrecognized kind, source⟩ => by
      rw [member, Member.mend]
      exact .bind (.unexpected kind source) fun _ => .pure []
  | ⟨.method d, source⟩ => by
      rw [member, Member.mend, optionMember, member]
      exact .bind (methodMember_mend host note owner source d.name d.attributes d) fun _ => .pure _
  | ⟨.entryPoint d, source⟩ => by
      rw [member, Member.mend, optionMember, member]
      exact .bind (methodMember_mend host note owner source "Main" .publicStatic d) fun _ => .pure _
  | ⟨.constructor d, source⟩ => by
      rw [member, Member.mend, optionMember, member]
      exact .bind (constructorMember_mend host note owner source d) fun _ => .pure _
  | ⟨.property d, source⟩ => by
      rw [member, Member.mend, optionMember, member]
      exact propertyMembers_mend host note owner source position d
  | ⟨.nestedType d, source⟩ => by
      have hname : (d.mend note).name = d.name := by
        obtain ⟨name, kind, modifiers, baseTypes, declared, customAttributes, source⟩ := d
        rw [TypeDeclaration.mend]
      rw [member, Member.mend, optionMember, member, hname]
      exact .bind (typeDeclaration_mend "" (some owner.id) d) fun _ => .pure _
  | ⟨.field _, _⟩ | ⟨.event _, _⟩ | ⟨.snippet _ _, _⟩ => by
      rw [Member.mend, optionMember]
      exact (member_reports host owner position _).alike

end

/-! ## Units -/

theorem namespaceNode_mend (n : CodeTree.Namespace) :
    Alike (namespaceNode host n) (namespaceNode host (n.mend note)) :=
  .bind (.mapM_map (typeDeclaration_mend host note n.name none) n.types) fun _ => .pure _

theorem unit_alike (u : CodeTree.CompileUnit) :
    Alike (unit host u) (unit host (u.mend note)) := by
  unfold unit CompileUnit.mend
  refine .get fun s₀ t₀ _ => ?_
  refine .bind (attributes_reports host u.assemblyAttributes).alike fun _ => ?_
  refine .bind (.modifyModule _) fun _ => ?_
  refine .get fun s t h => ?_
  rw [h]
  refine .bind (references_alike host u.referencedAssemblies _) fun _ => ?_
  refine .bind (.mapM_map (namespaceNode_mend host note) u.namespaces) fun namespaces => ?_
  cases u.snippet with
  | none => exact .bind (.pure _) fun _ => .get fun _ _ _ => .bind (.emit _ _) fun _ => .pure _
  | some snippet =>
      refine .bind (unitSource_reports host snippet).alike fun _ => .bind (.pure _) fun _ => ?_
      exact .get fun _ _ _ => .bind (.emit _ _) fun _ => .pure _

/-- Mending a tree changes neither the unit nor the module that lowering makes of it. Both sinks go
    on alike: first the entries for attributes of the assembly, then those for assemblies that are
    not found. Behind them stands one entry for each node of unknown shape in the namespaces, and
    of these the mended tree has those of the expressions, but none of a member or a statement. -/
theorem unit_mend (u : CodeTree.CompileUnit) (s : LoweringState σ) :
    (unit host (u.mend note) s).1 = (unit host u s).1 ∧
    (unit host (u.mend note) s).2.module = (unit host u s).2.module ∧
    (unit host u s).2.errors = s.errors ++
      ((attributesUnknown u.assemblyAttributes).map UnknownNode.diagnostic ++
        (unresolvedOf host u s ++
          (namespacesUnknown u.namespaces).map UnknownNode.diagnostic)) ∧
    (unit host (u.mend note) s).2.errors = s.errors ++
      ((attributesUnknown u.assemblyAttributes).map UnknownNode.diagnostic ++
        (unresolvedOf host u s ++
          ((namespacesUnknown u.namespaces).filter UnknownNode.isExpression).map
            UnknownNode.diagnostic)) := by
  obtain ⟨hunit, hmodule, -⟩ := unit_alike host note u s s rfl rfl
  refine ⟨hunit.symm, hmodule.symm, unit_errors host u s, ?_⟩
  have hnodes := namespacesUnknown_mend note u.namespaces
  unfold expressionsOf at hnodes
  rw [← hnodes]
  exact unit_errors host (u.mend note) s

end Lowering

end MiddleEnd
