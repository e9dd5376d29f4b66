/-
  Editors that bring no unknown members into code. `keepsNames` relates code to edited code that
  names only members with a property if the code did. It passes through every form, so it is closed
  under an editor as soon as the overrides of the editor keep it (`keepsNames_closed`).
-/
import MiddleEnd.Proofs.Code.Editing
import MiddleEnd.Proofs.Code.Occurrence

namespace MiddleEnd

section

variable {σ : Type} (p : MemberRef → Prop) (quiet : σ → Prop)

/-- From code that names only members with the property and a quiet state to the same. -/
def Keeps (es : List Expr) (s : σ) (es' : List Expr) (s' : σ) : Prop :=
  NamesOnly p es → quiet s → NamesOnly p es' ∧ quiet s'

def keepsNames : EditRelation σ where
  expr e s e' s' := Keeps p quiet (e.exprs true) s (e'.exprs true) s'
  walked e s e' s' := Keeps p quiet (e.exprs true) s (e'.exprs true) s'
  option e s e' s' := Keeps p quiet (optionExprs true e) s (optionExprs true e') s'
  exprs es s es' s' := Keeps p quiet (exprsExprs true es) s (exprsExprs true es') s'
  stmt st s st' s' := Keeps p quiet (st.exprs true) s (st'.exprs true) s'
  labeled st s st' s' := Keeps p quiet (labeledExprs true st) s (labeledExprs true st') s'
  stmts ss s ss' s' := Keeps p quiet (stmtsExprs true ss) s (stmtsExprs true ss') s'
  catchers cs s cs' s' := Keeps p quiet (catchersExprs true cs) s (catchersExprs true cs') s'
  last b s b' s' := Keeps p quiet (lastExprs true b) s (lastExprs true b') s'
  block b s b' s' := Keeps p quiet (b.exprs true) s (b'.exprs true) s'

end

namespace Keeps

variable {σ : Type} {p : MemberRef → Prop} {quiet : σ → Prop} {s s₁ s' : σ}

theorem refl (es : List Expr) : Keeps p quiet es s es s := fun hn hs => ⟨hn, hs⟩

theorem dropped (es : List Expr) : Keeps p quiet es s [] s := fun _ hs => ⟨namesOnly_nil, hs⟩

theorem append {es es' fs fs' : List Expr} (h : Keeps p quiet es s es' s₁)
    (hf : Keeps p quiet fs s₁ fs' s') : Keeps p quiet (es ++ fs) s (es' ++ fs') s' := by
  intro hn hs
  obtain ⟨hes, hfs⟩ := namesOnly_append.mp hn
  obtain ⟨hes', hs₁⟩ := h hes hs
  obtain ⟨hfs', hs'⟩ := hf hfs hs₁
  exact ⟨namesOnly_append.mpr ⟨hes', hfs'⟩, hs'⟩

/-- The type of an expression stays. -/
theorem node {form form' : ExprForm} {type : Option TypeRef} {source : Option SourceContext}
    (hm : ∀ receiver ref, form' ≠ .member receiver ref)
    (h : Keeps p quiet (form.exprs true) s (form'.exprs true) s') :
    Keeps p quiet (Expr.exprs true ⟨form, type, source⟩) s
      (Expr.exprs true ⟨form', type, source⟩) s' := by
  intro hn hs
  obtain ⟨-, hform, htype⟩ := namesOnly_expr.mp hn
  obtain ⟨hform', hs'⟩ := h hform hs
  refine ⟨namesOnly_expr.mpr ⟨?_, hform', htype⟩, hs'⟩
  exact fun receiver ref he => absurd he (hm receiver ref)

/-- A member that stays, with its receiver edited. -/
theorem member {receiver receiver' : Option Expr} {ref : MemberRef} {type : Option TypeRef}
    {source : Option SourceContext}
    (h : Keeps p quiet (optionExprs true receiver) s (optionExprs true receiver') s') :
    Keeps p quiet (Expr.exprs true ⟨.member receiver ref, type, source⟩) s
      (Expr.exprs true ⟨.member receiver' ref, type, source⟩) s' := by
  intro hn hs
  obtain ⟨href, hreceiver, htype⟩ := namesOnly_member.mp hn
  obtain ⟨hreceiver', hs'⟩ := h hreceiver hs
  exact ⟨namesOnly_member.mpr ⟨href, hreceiver', htype⟩, hs'⟩

end Keeps

variable {σ : Type} {p : MemberRef → Prop} {quiet : σ → Prop} {editor : Editor σ}

/-- A member whose receiver is edited. -/
theorem keepsNames_member {receiver : Option Expr} {ref : MemberRef} {type : Option TypeRef}
    {source : Option SourceContext} {edit : Edit σ (Option Expr)}
    (h : edit.Yields ((keepsNames p quiet).option receiver)) :
    Edit.Yields (do return ⟨.member (← edit) ref, type, source⟩)
      ((keepsNames p quiet).walked ⟨.member receiver ref, type, source⟩) := by
  intro s
  obtain ⟨receiver', s', run, keeps⟩ := h s
  refine ⟨_, s', Edit.bind_run run _, ?_⟩
  exact Keeps.member keeps

/-- An assignment that is walked through. -/
theorem keepsNames_walk {parts : AssignmentParts σ} {target value : Expr}
    {source : Option SourceContext}
    (ht : parts.editTarget.Yields ((keepsNames p quiet).expr target))
    (hv : parts.editValue.Yields ((keepsNames p quiet).expr value)) :
    parts.walk.Yields ((keepsNames p quiet).stmt ⟨.assignment target value, source⟩) :=
  AssignmentParts.walk_yields ht hv fun _ _ _ _ _ ht hv => .append ht hv

theorem keepsNames_closed
    (expr : ∀ {e : Expr} {walk : Edit σ Expr}, walk.Yields ((keepsNames p quiet).walked e) →
      (editor.expr e walk).Yields ((keepsNames p quiet).expr e))
    (member : ∀ {receiver : Option Expr} {ref : MemberRef} {type : Option TypeRef}
      {source : Option SourceContext} {edit : Edit σ (Option Expr)},
      edit.Yields ((keepsNames p quiet).option receiver) →
      (editor.member ⟨.member receiver ref, type, source⟩ receiver ref edit).Yields
        ((keepsNames p quiet).walked ⟨.member receiver ref, type, source⟩))
    (call : editor.call = fun _ _ _ walk => walk)
    (assignment : ∀ {receiver : Option Expr} {ref : MemberRef} {type : Option TypeRef}
      {targetSource source : Option SourceContext} {value : Expr}
      {editTarget editValue : Edit σ Expr} {editReceiver : Edit σ (Option Expr)},
      editTarget.Yields ((keepsNames p quiet).expr ⟨.member receiver ref, type, targetSource⟩) →
      editValue.Yields ((keepsNames p quiet).expr value) →
      editReceiver.Yields ((keepsNames p quiet).option receiver) →
      (editor.assignment ⟨⟨.member receiver ref, type, targetSource⟩, value, source, editTarget,
        editValue, editReceiver⟩).Yields
        ((keepsNames p quiet).stmt
          ⟨.assignment ⟨.member receiver ref, type, targetSource⟩ value, source⟩))
    (walk : ∀ {parts : AssignmentParts σ},
      (∀ receiver ref, parts.target.form ≠ .member receiver ref) →
      editor.assignment parts = parts.walk) : (keepsNames p quiet).Closed editor := by
  constructor
  case expr => exact expr
  case member => exact member
  case assignMember => exact assignment
  case call =>
    intro callee arguments type source action h s
    obtain ⟨_, s', run, callee', s₁, arguments', hc, ha, rfl⟩ := h s
    rw [call]
    exact ⟨_, s', run, .node nofun (.append hc ha)⟩
  case assign =>
    intro target value source editTarget editValue hm ht hv
    rw [walk hm]
    exact keepsNames_walk ht hv
  case leaf => exact fun _ => .refl _
  case qualified => exact fun h => .node nofun h
  case binary => exact fun hl hr => .node nofun (.append hl hr)
  case assignment => exact fun h => .node nofun h
  case cast => exact fun h => .node nofun (.append h (.refl _))
  case indexer => exact fun ho hs => .node nofun (.append ho hs)
  case constructArray => exact fun hs hi => .node nofun (.append (.append (.refl _) hs) hi)
  case construct => exact fun h => .node nofun (.append (.refl _) h)
  case constructDelegate => exact fun h => .node nofun (.append (.refl _) h)
  case addressOf => exact fun h => .node nofun h
  case blockExpr => exact fun h => .node nofun h
  case exprsCons => exact fun h hs => .append h hs
  case attachEvent => exact fun he hh => .append he hh
  case removeEvent => exact fun he hh => .append he hh
  case branch => exact fun hc ht hf => .append (.append hc ht) hf
  case loop => exact fun hi ht hn hb => .append (.append (.append hi ht) hn) hb
  case protect => exact fun hb hc hl => .append (.append hb hc) hl
  case declaration => exact fun h => .append (.refl _) h
  case stmtsCons => exact fun h hs => .append h hs
  case catchersCons => exact fun hb hc => .append (.append (.refl _) hb) hc
  case expression | labeledStmt | ret | raise | blockStmt => exact fun h => h
  case optionSome | labeledSome | lastSome | block => exact fun h => h
  case goto | snippet | optionNone | exprsNil | labeledNone => exact .refl _
  case stmtsNil | catchersNil | lastNone => exact .refl _

end MiddleEnd
