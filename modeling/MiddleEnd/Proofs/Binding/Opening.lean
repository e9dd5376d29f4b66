/-
  Binding keeps chain calls. The callee of a chain call is a name on the object at hand; a lookup
  finds a member of that name or nothing, so the callee stays the name that it was or becomes a
  member that is called like a constructor. The object at hand stays what it is, and a call stays a
  call. So a bound body still opens with its chain call (`opens_bound`).
-/
import MiddleEnd.Proofs.Code.Editing
import MiddleEnd.Proofs.Lowering.Chain
import MiddleEnd.Proofs.Pass.Revision

namespace MiddleEnd.Binding

variable {u : Universe}

theorem isConstructorName_of_lookup {type : TypeId} {found : Found}
    (h : lookup u type Lowering.constructorName = some found) :
    u.isConstructorName found.member = true := by
  obtain ⟨ref, hfind, h⟩ := Option.bind_eq_some_iff.mp h
  obtain ⟨member, hmember, h⟩ := Option.bind_eq_some_iff.mp h
  obtain rfl := Option.some.inj h
  have hmember := toOption_eq_some.mp hmember
  obtain ⟨node, hn, hfind⟩ := Option.bind_eq_some_iff.mp hfind
  obtain ⟨i, hi, hfind⟩ := Option.bind_eq_some_iff.mp hfind
  obtain rfl : (⟨type, i⟩ : MemberRef) = ref := Option.some.inj hfind
  obtain ⟨hlt, hname, -⟩ := List.findIdx?_eq_some_iff_getElem.mp hi
  obtain ⟨node', hn', hat⟩ := Universe.member_eq_ok.mp hmember
  obtain rfl := Option.some.inj (hn.symm.trans hn')
  obtain ⟨_, rfl⟩ := List.getElem?_eq_some_iff.mp hat
  simp only [Universe.isConstructorName, hmember]
  exact hname

/-! ## One expression -/

/-- The bound expression has the part in a chain call that the expression had. -/
structure Opening (u : Universe) (e e' : Expr) : Prop where
  self : e.isSelf = true → e'.isSelf = true
  names : e.namesConstructor u.isConstructorName = true →
    e'.namesConstructor u.isConstructorName = true
  calls : e.callsConstructor u.isConstructorName = true →
    e'.callsConstructor u.isConstructorName = true

namespace Opening

theorem trans {e e' e'' : Expr} (h : Opening u e e') (h' : Opening u e' e'') :
    Opening u e e'' where
  self := fun hs => h'.self (h.self hs)
  names := fun hn => h'.names (h.names hn)
  calls := fun hc => h'.calls (h.calls hc)

/-- None of the three looks at types. -/
theorem of_form {form : ExprForm} {type type' : Option TypeRef} {source : Option SourceContext} :
    Opening u ⟨form, type, source⟩ ⟨form, type', source⟩ :=
  ⟨fun h => h, fun h => h, fun h => h⟩

/-- Most expressions have no part in a chain call. -/
theorem of_none {e e' : Expr} (hs : e.isSelf = false)
    (hn : e.namesConstructor u.isConstructorName = false)
    (hc : e.callsConstructor u.isConstructorName = false) : Opening u e e' where
  self := fun h => absurd (hs.symm.trans h) Bool.false_ne_true
  names := fun h => absurd (hn.symm.trans h) Bool.false_ne_true
  calls := fun h => absurd (hc.symm.trans h) Bool.false_ne_true

end Opening

theorem bindExpr_opening (owner : TypeId) (e : Expr) (s : State) :
    Opening u e (bindExpr u owner e s).1 := by
  obtain ⟨form, type, source⟩ := e
  cases form with
  | identifier name => exact .of_none rfl rfl rfl
  | qualified qualifier name =>
      dsimp only [bindExpr]
      rcases hl : (boundType? qualifier).bind fun type => lookup u type name with _ | found
      · exact .of_form
      · obtain ⟨id, -, hl⟩ := Option.bind_eq_some_iff.mp hl
        refine ⟨fun h => absurd h Bool.false_ne_true, fun h => ?_,
          fun h => absurd h Bool.false_ne_true⟩
        obtain ⟨hself, hname⟩ := Bool.and_eq_true_iff.mp h
        rw [eq_of_beq hname] at hl
        exact Bool.and_eq_true_iff.mpr ⟨hself, isConstructorName_of_lookup hl⟩
  | _ => exact .of_form

/-! ## A body -/

/-- A list of statements keeps its chain call in front. -/
def opening (u : Universe) : EditRelation State where
  expr e _ e' _ := Opening u e e'
  walked e _ e' _ := Opening u e e'
  option e _ e' _ := ∀ x, e = some x → ∃ x', e' = some x' ∧ Opening u x x'
  exprs _ _ _ _ := True
  stmt st _ st' _ := st.isChainCall u.isConstructorName = true →
    st'.isChainCall u.isConstructorName = true
  labeled _ _ _ _ := True
  stmts ss _ ss' _ := ss.head?.any (Stmt.isChainCall u.isConstructorName) = true →
    ss'.head?.any (Stmt.isChainCall u.isConstructorName) = true
  catchers _ _ _ _ := True
  last _ _ _ _ := True
  block b _ b' _ := b.statements.head?.any (Stmt.isChainCall u.isConstructorName) = true →
    b'.statements.head?.any (Stmt.isChainCall u.isConstructorName) = true

theorem opening_closed (owner : TypeId) : (opening u).Closed (editor u owner) := by
  constructor
  case expr =>
    intro e walk h s
    obtain ⟨walked, s', run, hw⟩ := h s
    exact ⟨_, _, Edit.bind_run run _, hw.trans (bindExpr_opening owner walked s')⟩
  case member =>
    intro receiver ref type source edit h s
    obtain ⟨receiver', s', run, hr⟩ := h s
    refine ⟨_, s', Edit.bind_run run _, ?_⟩
    cases receiver with
    | none => exact .of_none rfl rfl rfl
    | some receiver =>
        obtain ⟨x, rfl, hx⟩ := hr receiver rfl
        refine ⟨fun h => h, fun h => ?_, fun h => h⟩
        obtain ⟨hself, hname⟩ := Bool.and_eq_true_iff.mp h
        exact Bool.and_eq_true_iff.mpr ⟨hx.self hself, hname⟩
  case call =>
    intro callee arguments type source walk h s
    obtain ⟨_, s', run, callee', s₁, arguments', hc, -, rfl⟩ := h s
    exact ⟨_, s', run, fun h => h, fun h => h, hc.names⟩
  case qualified =>
    intro qualifier name type source s qualifier' s' h
    refine ⟨fun h => h, fun hn => ?_, fun h => h⟩
    obtain ⟨hself, hname⟩ := Bool.and_eq_true_iff.mp hn
    exact Bool.and_eq_true_iff.mpr ⟨h.self hself, hname⟩
  case assignMember =>
    intro receiver ref type targetSource source value editTarget editValue editReceiver ht hv _
    exact AssignmentParts.walk_yields ht hv fun _ _ _ _ _ _ _ h => absurd h Bool.false_ne_true
  case assign =>
    intro target value source editTarget editValue _ ht hv
    exact AssignmentParts.walk_yields ht hv fun _ _ _ _ _ _ _ h => absurd h Bool.false_ne_true
  case leaf => exact fun _ => .of_form
  case binary | assignment | cast | indexer | constructArray | construct | constructDelegate
      | addressOf | blockExpr =>
    intros
    exact .of_none rfl rfl rfl
  case optionNone => exact fun _ h => absurd h.symm (Option.some_ne_none _)
  case optionSome =>
    intro e s e' s' h x hx
    obtain rfl := Option.some.inj hx
    exact ⟨e', rfl, h⟩
  case expression => exact fun h => h.calls
  case attachEvent | removeEvent | branch | labeledStmt | loop | ret | raise | protect
      | declaration | blockStmt | goto | snippet =>
    intros
    exact fun h => absurd h Bool.false_ne_true
  case exprsNil | exprsCons | labeledNone | labeledSome | catchersNil | catchersCons | lastNone
      | lastSome =>
    intros
    trivial
  case stmtsNil => exact fun h => h
  case stmtsCons => exact fun h _ => h
  case block => exact fun h => h

theorem opens_bound (ref : MemberRef) {body : Body} (bound : Nat)
    (h : body.opens u.isConstructorName = true) :
    (editBody u ref body bound).body.opens u.isConstructorName = true :=
  (opening_closed ref.type).editBlock body.block _ h

/-! ## The pass -/

theorem bindExpr_outline (u : Universe) (owner : TypeId) :
    bindExpr u.outline owner = bindExpr u owner := by
  have hlookup : lookup u.outline = lookup u := by
    funext type name
    exact Universe.outlineView.lookup_view u type name
  have hcall : callType u.outline = callType u := by
    funext callee
    exact Universe.outlineView.callType_view u callee
  unfold bindExpr
  rw [hlookup, hcall]

theorem editor_outline (u : Universe) (owner : TypeId) :
    editor u.outline owner = editor u owner := by
  unfold editor
  rw [bindExpr_outline]

/-- What binding makes of each method. -/
def reviser : Reviser := .ofBodies fun outline ref body => some (editBody outline ref body 0).body

theorem pass_revises : pass.Revises (fun _ => True) reviser := by
  refine BodyPass.revises_of_editBody (fun _ => rfl) (fun u ref body state _ => ?_)
    fun _ _ _ _ _ => trivial
  show some (editBody u.outline ref body 0).body = (editBody u ref body state).result?
  unfold editBody
  rw [editor_outline]
  rfl

end MiddleEnd.Binding
