/-
  Properties of all expressions of code, types apart. `leaves p` relates whatever code to edited
  code all of whose expressions have the property; `spares p` says that code all of whose
  expressions have the property comes back as it was, with the state. For an editor that overrides
  only expressions either is closed as soon as it holds of an expression whose parts are edited
  (`leaves_closed`, `spares_closed`).
-/
import MiddleEnd.Proofs.Code.Editing
import MiddleEnd.Proofs.Code.Occurrence

namespace MiddleEnd

variable {σ : Type} {p : Expr → Prop} {editor : Editor σ}

/-- Expressions are all that the editor overrides. -/
structure Editor.OnlyExprs (editor : Editor σ) : Prop where
  member : editor.member =
    fun e _ member receiver => do return { e with form := .member (← receiver) member }
  call : editor.call = fun _ _ _ walk => walk
  assignment : editor.assignment = AssignmentParts.walk

/-! ## What an edit leaves -/

def leaves (p : Expr → Prop) : EditRelation σ where
  expr _ _ e' _ := ∀ x ∈ e'.exprs false, p x
  walked _ _ e' _ := ∀ x ∈ e'.form.exprs false, p x
  option _ _ e' _ := ∀ x ∈ optionExprs false e', p x
  exprs _ _ es' _ := ∀ x ∈ exprsExprs false es', p x
  stmt _ _ st' _ := ∀ x ∈ st'.exprs false, p x
  labeled _ _ st' _ := ∀ x ∈ labeledExprs false st', p x
  stmts _ _ ss' _ := ∀ x ∈ stmtsExprs false ss', p x
  catchers _ _ cs' _ := ∀ x ∈ catchersExprs false cs', p x
  last _ _ b' _ := ∀ x ∈ lastExprs false b', p x
  block _ _ b' _ := ∀ x ∈ b'.exprs false, p x

theorem leaves_closed (honly : editor.OnlyExprs)
    (expr : ∀ {e : Expr} {walk : Edit σ Expr}, walk.Yields ((leaves p).walked e) →
      (editor.expr e walk).Yields ((leaves p).expr e)) : (leaves p).Closed editor := by
  have both : ∀ {es fs : List Expr}, (∀ x ∈ es, p x) → (∀ x ∈ fs, p x) → ∀ x ∈ es ++ fs, p x :=
    fun h h' => List.forall_mem_append.mpr ⟨h, h'⟩
  have type : ∀ t : Option TypeRef, ∀ x ∈ typeExprs false t, p x := by simp
  constructor
  case expr => exact expr
  case member =>
    intro receiver ref t source edit h s
    obtain ⟨receiver', s', run, hr⟩ := h s
    rw [honly.member]
    exact ⟨_, s', Edit.bind_run run _, hr⟩
  case call =>
    intro callee arguments t source walk h s
    obtain ⟨_, s', run, callee', s₁, arguments', hc, ha, rfl⟩ := h s
    rw [honly.call]
    exact ⟨_, s', run, both hc ha⟩
  case assignMember =>
    intro receiver ref t targetSource source value editTarget editValue editReceiver ht hv _
    rw [honly.assignment]
    exact AssignmentParts.walk_yields ht hv fun _ _ _ _ _ => both
  case assign =>
    intro target value source editTarget editValue _ ht hv
    rw [honly.assignment]
    exact AssignmentParts.walk_yields ht hv fun _ _ _ _ _ => both
  case leaf =>
    intro form t source s h x hx
    rw [ExprForm.exprs_leaf h] at hx
    cases hx
  case qualified | addressOf | blockExpr | assignment => exact fun h => h
  case binary | indexer => exact fun h₁ h₂ => both h₁ h₂
  case cast => exact fun h => both h (type (some _))
  case constructArray => exact fun h₁ h₂ => both (both (type (some _)) h₁) h₂
  case construct | constructDelegate => exact fun h => both (type (some _)) h
  case exprsCons | stmtsCons => exact fun h₁ h₂ => both h₁ h₂
  case catchersCons => exact fun h₁ h₂ => both (both (type _) h₁) h₂
  case attachEvent | removeEvent => exact fun h₁ h₂ => both h₁ h₂
  case branch | protect => exact fun h₁ h₂ h₃ => both (both h₁ h₂) h₃
  case loop => exact fun h₁ h₂ h₃ h₄ => both (both (both h₁ h₂) h₃) h₄
  case declaration => exact fun h => both (type (some _)) h
  case expression | labeledStmt | ret | raise | blockStmt => exact fun h => h
  case optionSome | labeledSome | lastSome | block => exact fun h => h
  case goto | snippet | optionNone | exprsNil | labeledNone | stmtsNil | catchersNil | lastNone =>
    exact fun _ hx => absurd hx List.not_mem_nil

/-! ## What an edit spares -/

/-- If all the expressions have the property, the code and the state stay. -/
def Spared {α : Type} (p : Expr → Prop) (es : List Expr) (a : α) (s : σ) (a' : α) (s' : σ) : Prop :=
  (∀ x ∈ es, p x) → a' = a ∧ s' = s

namespace Spared

variable {α β : Type} {es fs : List Expr} {a a' : α} {s s₁ s' : σ}

theorem refl (es : List Expr) (a : α) (s : σ) : Spared p es a s a s := fun _ => ⟨rfl, rfl⟩

theorem map (f : α → β) (h : Spared p es a s a' s') : Spared p es (f a) s (f a') s' := by
  intro hall
  obtain ⟨rfl, rfl⟩ := h hall
  exact ⟨rfl, rfl⟩

theorem ap {f f' : α → β} (h : Spared p es f s f' s₁) (ha : Spared p fs a s₁ a' s') :
    Spared p (es ++ fs) (f a) s (f' a') s' := by
  intro hall
  obtain ⟨hes, hfs⟩ := List.forall_mem_append.mp hall
  obtain ⟨rfl, rfl⟩ := h hes
  obtain ⟨rfl, rfl⟩ := ha hfs
  exact ⟨rfl, rfl⟩

end Spared

def spares (p : Expr → Prop) : EditRelation σ where
  expr e := Spared p (e.exprs false) e
  walked e := Spared p (e.form.exprs false) e
  option e := Spared p (optionExprs false e) e
  exprs es := Spared p (exprsExprs false es) es
  stmt st := Spared p (st.exprs false) st
  labeled st := Spared p (labeledExprs false st) st
  stmts ss := Spared p (stmtsExprs false ss) ss
  catchers cs := Spared p (catchersExprs false cs) cs
  last b := Spared p (lastExprs false b) b
  block b := Spared p (b.exprs false) b

theorem spares_closed (honly : editor.OnlyExprs)
    (expr : ∀ {e : Expr} {walk : Edit σ Expr}, walk.Yields ((spares p).walked e) →
      (editor.expr e walk).Yields ((spares p).expr e)) : (spares p).Closed editor := by
  constructor
  case expr => exact expr
  case member =>
    intro receiver ref type source edit h s
    obtain ⟨receiver', s', run, hr⟩ := h s
    rw [honly.member]
    exact ⟨_, s', Edit.bind_run run _, hr.map fun r => Expr.mk (.member r ref) type source⟩
  case call =>
    intro callee arguments type source walk h s
    obtain ⟨_, s', run, callee', s₁, arguments', hc, ha, rfl⟩ := h s
    rw [honly.call]
    exact ⟨_, s', run, (hc.map fun c as => Expr.mk (.call c as) type source).ap ha⟩
  case assignMember =>
    intro receiver ref type targetSource source value editTarget editValue editReceiver ht hv _
    rw [honly.assignment]
    exact AssignmentParts.walk_yields ht hv fun _ _ _ _ _ ht hv =>
      (ht.map fun t v => Stmt.mk (.assignment t v) source).ap hv
  case assign =>
    intro target value source editTarget editValue _ ht hv
    rw [honly.assignment]
    exact AssignmentParts.walk_yields ht hv fun _ _ _ _ _ ht hv =>
      (ht.map fun t v => Stmt.mk (.assignment t v) source).ap hv
  case leaf => exact fun _ => .refl _ _ _
  case qualified => exact fun h => h.map fun q => Expr.mk (.qualified q _) _ _
  case binary => exact fun hl hr => (hl.map fun l r => Expr.mk (.binary _ l r) _ _).ap hr
  case assignment => exact fun h => h.map fun st => Expr.mk (.assignment st) _ _
  case cast => exact fun h => (h.map fun o t => Expr.mk (.cast o t) _ _).ap (.refl _ _ _)
  case indexer => exact fun ho hs => (ho.map fun o os => Expr.mk (.indexer o os) _ _).ap hs
  case constructArray =>
    exact fun hs hi =>
      ((Spared.refl _ (fun n is => Expr.mk (.constructArray _ n is) _ _) _).ap hs).ap hi
  case construct =>
    exact fun h => (Spared.refl _ (fun os => Expr.mk (.construct _ os) _ _) _).ap h
  case constructDelegate =>
    exact fun h => (Spared.refl _ (fun t => Expr.mk (.constructDelegate _ t _) _ _) _).ap h
  case addressOf => exact fun h => h.map fun o => Expr.mk (.addressOf o) _ _
  case blockExpr => exact fun h => h.map fun b => Expr.mk (.block b) _ _
  case exprsCons | stmtsCons => exact fun h hs => (h.map List.cons).ap hs
  case attachEvent => exact fun he hh => (he.map fun e h => Stmt.mk (.attachEvent e h) _).ap hh
  case removeEvent => exact fun he hh => (he.map fun e h => Stmt.mk (.removeEvent e h) _).ap hh
  case branch =>
    exact fun hc ht hf => ((hc.map fun c t f => Stmt.mk (.branch c t f) _).ap ht).ap hf
  case expression => exact fun h => h.map fun e => Stmt.mk (.expression e) _
  case labeledStmt => exact fun h => h.map fun st => Stmt.mk (.labeled _ st) _
  case loop =>
    exact fun hi ht hn hb =>
      (((hi.map fun i t n b => Stmt.mk (.loop i t n b) _).ap ht).ap hn).ap hb
  case ret => exact fun h => h.map fun v => Stmt.mk (.ret v) _
  case raise => exact fun h => h.map fun v => Stmt.mk (.raise v) _
  case protect =>
    exact fun hb hc hl => ((hb.map fun b cs l => Stmt.mk (.protect b cs l) _).ap hc).ap hl
  case declaration =>
    exact fun h => (Spared.refl _ (fun i => Stmt.mk (.declaration _ _ i) _) _).ap h
  case blockStmt => exact fun h => h.map fun b => Stmt.mk (.block b) _
  case optionSome | labeledSome | lastSome => exact fun h => h.map some
  case catchersCons =>
    exact fun hb hc => ((Spared.refl _ (fun b cs => Catcher.mk _ _ b :: cs) _).ap hb).ap hc
  case block => exact fun h => h.map fun ss => Block.mk ss _
  case goto | snippet | optionNone | exprsNil | labeledNone | stmtsNil | catchersNil | lastNone =>
    exact .refl _ _ _

end MiddleEnd
