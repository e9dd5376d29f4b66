/-
  Assignments as expressions. An expression may wrap a statement, which is meant to be an
  assignment. `rewraps p` relates code to edited code that wraps the same number of statements in
  the same order, where those with the property `p` are assignments behind the edit and the others
  are not. It passes through every form, so it is closed under an editor as soon as the overrides
  of the editor keep it (`rewraps_closed`).
-/
import MiddleEnd.Proofs.Code.Editing
import MiddleEnd.Proofs.Code.Occurrence

namespace MiddleEnd

def Stmt.isAssignment (s : Stmt) : Bool :=
  match s.form with
  | .assignment _ _ => true
  | _ => false

/-- The statement that an expression wraps. -/
def ExprForm.wrapped? : ExprForm → Option Stmt
  | .assignment statement => some statement
  | _ => none

/-- The statements that the expressions wrap. -/
def wrapped (es : List Expr) : List Stmt := es.filterMap (·.form.wrapped?)

@[simp]
theorem wrapped_nil : wrapped [] = [] := rfl

@[simp]
theorem wrapped_cons (e : Expr) (es : List Expr) :
    wrapped (e :: es) = e.form.wrapped?.toList ++ wrapped es :=
  filterMap_cons_toList _ e es

@[simp]
theorem wrapped_append (es fs : List Expr) : wrapped (es ++ fs) = wrapped es ++ wrapped fs :=
  List.filterMap_append

/-- Whatever the expressions wrap is an assignment. -/
def WrapsAssignments (es : List Expr) : Prop := ∀ s ∈ wrapped es, s.isAssignment = true

instance (es : List Expr) : Decidable (WrapsAssignments es) :=
  inferInstanceAs (Decidable (∀ s ∈ wrapped es, s.isAssignment = true))

/-- Of the statements that were wrapped, those with the property are wrapped as assignments now. -/
def Rewraps (p : Stmt → Bool) (es es' : List Expr) : Prop :=
  (wrapped es').map Stmt.isAssignment = (wrapped es).map p

namespace Rewraps

variable {p : Stmt → Bool}

theorem nil : Rewraps p [] [] := rfl

theorem append {es es' fs fs' : List Expr} (h : Rewraps p es es') (hf : Rewraps p fs fs') :
    Rewraps p (es ++ fs) (es' ++ fs') := by
  rw [Rewraps, wrapped_append, wrapped_append, List.map_append, List.map_append, h, hf]

theorem type (type : Option TypeRef) : Rewraps p (typeExprs false type) (typeExprs false type) := by
  rw [typeExprs_false]
  exact nil

theorem mentioned (type : TypeRef) : Rewraps p (type.exprs false) (type.exprs false) :=
  Rewraps.type (some type)

/-- An expression that wraps nothing itself. -/
theorem node {form form' : ExprForm} {type type' : Option TypeRef}
    {source source' : Option SourceContext} (hf : form.wrapped? = none)
    (hf' : form'.wrapped? = none) (h : Rewraps p (form.exprs false) (form'.exprs false)) :
    Rewraps p (Expr.exprs false ⟨form, type, source⟩)
      (Expr.exprs false ⟨form', type', source'⟩) := by
  simp only [Rewraps, Expr.exprs, typeExprs_false, List.append_nil, wrapped_cons, hf, hf']
  exact h

/-- Edited code wraps assignments only, exactly if all that was wrapped has the property. -/
theorem wrapsAssignments_iff {es es' : List Expr} (h : Rewraps p es es') :
    WrapsAssignments es' ↔ ∀ s ∈ wrapped es, p s = true := by
  have hall : (∀ b ∈ (wrapped es').map Stmt.isAssignment, b = true) ↔
      ∀ b ∈ (wrapped es).map p, b = true := by rw [h]
  simpa only [WrapsAssignments, List.forall_mem_map] using hall

end Rewraps

section

variable {σ : Type} (p : Stmt → Bool)

def rewraps : EditRelation σ where
  expr e _ e' _ := Rewraps p (e.exprs false) (e'.exprs false)
  walked e _ e' _ := Rewraps p (e.exprs false) (e'.exprs false)
  option e _ e' _ :=
    e'.isSome = e.isSome ∧ Rewraps p (optionExprs false e) (optionExprs false e')
  exprs es _ es' _ := Rewraps p (exprsExprs false es) (exprsExprs false es')
  stmt st _ st' _ := st'.isAssignment = p st ∧ Rewraps p (st.exprs false) (st'.exprs false)
  labeled st _ st' _ := Rewraps p (labeledExprs false st) (labeledExprs false st')
  stmts ss _ ss' _ := Rewraps p (stmtsExprs false ss) (stmtsExprs false ss')
  catchers cs _ cs' _ := Rewraps p (catchersExprs false cs) (catchersExprs false cs')
  last b _ b' _ := Rewraps p (lastExprs false b) (lastExprs false b')
  block b _ b' _ := Rewraps p (b.exprs false) (b'.exprs false)

end

variable {σ : Type} {p : Stmt → Bool} {editor : Editor σ}

theorem rewraps_closed (hp : ∀ st : Stmt, st.isAssignment = false → p st = false)
    (expr : ∀ {e : Expr} {walk : Edit σ Expr}, walk.Yields ((rewraps p).walked e) →
      (editor.expr e walk).Yields ((rewraps p).expr e))
    (member : ∀ {receiver : Option Expr} {ref : MemberRef} {type : Option TypeRef}
      {source : Option SourceContext} {edit : Edit σ (Option Expr)},
      edit.Yields ((rewraps p).option receiver) →
      (editor.member ⟨.member receiver ref, type, source⟩ receiver ref edit).Yields
        ((rewraps p).walked ⟨.member receiver ref, type, source⟩))
    (call : editor.call = fun _ _ _ walk => walk)
    (assignMember : ∀ {receiver : Option Expr} {ref : MemberRef} {type : Option TypeRef}
      {targetSource source : Option SourceContext} {value : Expr}
      {editTarget editValue : Edit σ Expr} {editReceiver : Edit σ (Option Expr)},
      editTarget.Yields ((rewraps p).expr ⟨.member receiver ref, type, targetSource⟩) →
      editValue.Yields ((rewraps p).expr value) →
      editReceiver.Yields ((rewraps p).option receiver) →
      (editor.assignment ⟨⟨.member receiver ref, type, targetSource⟩, value, source, editTarget,
        editValue, editReceiver⟩).Yields
        ((rewraps p).stmt
          ⟨.assignment ⟨.member receiver ref, type, targetSource⟩ value, source⟩))
    (assign : ∀ {target value : Expr} {source : Option SourceContext}
      {editTarget editValue : Edit σ Expr},
      (∀ receiver ref, target.form ≠ .member receiver ref) →
      editTarget.Yields ((rewraps p).expr target) → editValue.Yields ((rewraps p).expr value) →
      (editor.assignment ⟨target, value, source, editTarget, editValue, pure none⟩).Yields
        ((rewraps p).stmt ⟨.assignment target value, source⟩)) :
    (rewraps p).Closed editor := by
  constructor
  case expr => exact expr
  case member => exact member
  case assignMember => exact assignMember
  case assign => exact assign
  case call =>
    intro callee arguments type source action h s
    obtain ⟨_, s', run, callee', s₁, arguments', hc, ha, rfl⟩ := h s
    rw [call]
    exact ⟨_, s', run, .node rfl rfl (.append hc ha)⟩
  case assignment =>
    intro statement type source s statement' s' h
    have hnode : ∀ st : Stmt, wrapped (Expr.exprs false ⟨.assignment st, type, source⟩) =
        st :: wrapped (st.exprs false) := by
      intro st
      simp [ExprForm.wrapped?]
    show List.map _ (wrapped _) = List.map _ (wrapped _)
    rw [hnode, hnode, List.map_cons, List.map_cons, h.1, h.2]
  case leaf =>
    intro form type source s h
    have hnil : form.exprs false = [] := ExprForm.exprs_leaf h
    have hform : form.wrapped? = none := by
      cases form with
      | assignment => cases h
      | _ => rfl
    refine .node hform hform ?_
    rw [hnil]
    exact .nil
  case qualified | addressOf | blockExpr => exact fun h => .node rfl rfl h
  case binary | indexer => exact fun h₁ h₂ => .node rfl rfl (.append h₁ h₂)
  case cast => exact fun h => .node rfl rfl (.append h (.mentioned _))
  case constructArray =>
    exact fun h₁ h₂ => .node rfl rfl (.append (.append (.mentioned _) h₁) h₂)
  case construct | constructDelegate => exact fun h => .node rfl rfl (.append (.mentioned _) h)
  case exprsCons => exact fun h₁ h₂ => .append h₁ h₂
  case stmtsCons => exact fun h₁ h₂ => .append h₁.2 h₂
  case catchersCons => exact fun h₁ h₂ => .append (.append (.type _) h₁) h₂
  case attachEvent | removeEvent => exact fun h₁ h₂ => ⟨(hp _ rfl).symm, .append h₁ h₂⟩
  case branch | protect => exact fun h₁ h₂ h₃ => ⟨(hp _ rfl).symm, .append (.append h₁ h₂) h₃⟩
  case loop =>
    exact fun h₁ h₂ h₃ h₄ => ⟨(hp _ rfl).symm, .append (.append (.append h₁ h₂.2) h₃) h₄⟩
  case declaration => exact fun h => ⟨(hp _ rfl).symm, .append (.mentioned _) h.2⟩
  case ret | raise => exact fun h => ⟨(hp _ rfl).symm, h.2⟩
  case expression | labeledStmt | blockStmt => exact fun h => ⟨(hp _ rfl).symm, h⟩
  case goto | snippet => exact ⟨(hp _ rfl).symm, .nil⟩
  case optionNone => exact ⟨rfl, .nil⟩
  case optionSome => exact fun h => ⟨rfl, h⟩
  case lastSome | block => exact fun h => h
  case labeledSome => exact fun h => h.2
  case exprsNil | labeledNone | stmtsNil | catchersNil | lastNone => exact .nil

end MiddleEnd
