/-
  Bindings that lead nowhere. Instrumentation looks up every member that a body is bound to outside
  types, in the order of the body; the target of an assignment is looked up twice if it is no field.
  A lookup that fails is noted and the editing goes on, but only the first failure is kept. So a
  body fails exactly if one of its bindings dangles, and with the first of them
  (`failure_editBody`), and a run over a unit ends at the first body of this kind that it meets
  (`editUnit_fails_iff`).

  A method that the unit lists again is met with the body that the earlier visits have left. There
  it calls the getter of a contract, and contracts may name members that do not exist; so a body
  without a dangling binding can make the run fail when it is met again.
-/
import Mathlib.Logic.Function.Iterate
import MiddleEnd.Proofs.Code.Occurrence
import MiddleEnd.Proofs.Guard.Step
import MiddleEnd.Proofs.Pass.Frame
import MiddleEnd.Proofs.Pipeline.Order

namespace MiddleEnd

/-- The member that an expression is bound to. -/
def ExprForm.bound? : ExprForm → Option MemberRef
  | .member _ ref => some ref
  | _ => none

/-- The members that the expressions are bound to, in their order. -/
def bindings (es : List Expr) : List MemberRef := es.filterMap (·.form.bound?)

@[simp]
theorem bindings_nil : bindings [] = [] := rfl

@[simp]
theorem bindings_cons (e : Expr) (es : List Expr) :
    bindings (e :: es) = e.form.bound?.toList ++ bindings es :=
  filterMap_cons_toList _ e es

@[simp]
theorem bindings_append (es fs : List Expr) : bindings (es ++ fs) = bindings es ++ bindings fs :=
  List.filterMap_append

theorem bindings_member (receiver : Option Expr) (ref : MemberRef) (type : Option TypeRef)
    (source : Option SourceContext) :
    bindings (Expr.exprs false ⟨.member receiver ref, type, source⟩) =
      ref :: bindings (optionExprs false receiver) := by
  simp [ExprForm.bound?]

/-- The members that the code is bound to, outside types. -/
def Body.bindings (body : Body) : List MemberRef := MiddleEnd.bindings (body.block.exprs false)

namespace Guard

/-! ## Lookups that fail -/

/-- The member cannot be looked up, for the reason given: it is not there, or it is a field of a
    type that is not there. -/
inductive Dangles (u : Universe) (ref : MemberRef) : InternalError → Prop
  | noType : u.type? ref.type = none → Dangles u ref (.danglingType ref.type)
  | noMember {node : TypeNode} : u.type? ref.type = some node →
      node.members[ref.index]? = none → Dangles u ref (.danglingMember ref)
  | noOwner {member : Member} {field : Field} : u.member ref = .ok member →
      member.field? = some field → u.type? member.declaringType = none →
      Dangles u ref (.danglingType member.declaringType)

/-- Every member that the body is bound to can be looked up. -/
def Resolves (u : Universe) (body : Body) : Prop := ∀ ref ∈ body.bindings, ∀ e, ¬Dangles u ref e

/-- The first binding of the body that dangles does so for this reason. -/
def FirstDangles (u : Universe) (body : Body) (e : InternalError) : Prop :=
  ∃ earlier ref later, body.bindings = earlier ++ ref :: later ∧ Dangles u ref e ∧
    ∀ ref' ∈ earlier, ∀ e', ¬Dangles u ref' e'

/-- How the lookup of a member fails. -/
def failure? (u : Universe) (ref : MemberRef) : Option InternalError :=
  match lookupField u ref with
  | .ok _ => none
  | .error e => some e

/-- How the first lookup that fails does so. -/
def firstFailure? (u : Universe) (refs : List MemberRef) : Option InternalError :=
  refs.findSome? (failure? u)

section

variable {u : Universe} {ref : MemberRef} {e : InternalError}

theorem type_eq_error {id : TypeId} :
    u.type id = .error e ↔ u.type? id = none ∧ e = .danglingType id := by
  unfold Universe.type
  cases u.type? id <;> simp [eq_comm]

theorem member_eq_error : u.member ref = .error e ↔
    (u.type? ref.type = none ∧ e = .danglingType ref.type) ∨
      ∃ node, u.type? ref.type = some node ∧ node.members[ref.index]? = none ∧
        e = .danglingMember ref := by
  unfold Universe.member Universe.type
  rcases u.type? ref.type with _ | node
  · simp [bind, Except.bind, eq_comm]
  · rcases h : node.members[ref.index]? with _ | m
    · simp [bind, Except.bind, throw, throwThe, MonadExceptOf.throw, eq_comm,
        List.getElem?_eq_none_iff.mp h]
    · have hlt := (List.getElem?_eq_some_iff.mp h).1
      simp [bind, Except.bind, pure, Except.pure, h, Nat.not_le.mpr hlt]

theorem failure?_eq_some : failure? u ref = some e ↔ Dangles u ref e := by
  have hfailure : failure? u ref = some e ↔ lookupField u ref = .error e := by
    unfold failure?
    cases lookupField u ref <;> simp
  rw [hfailure]
  constructor
  · intro h
    rcases hm : u.member ref with e' | member
    · obtain rfl : e' = e := by simpa [lookupField, hm, bind, Except.bind] using h
      rcases member_eq_error.mp hm with ⟨hn, rfl⟩ | ⟨node, hn, hi, rfl⟩
      · exact .noType hn
      · exact .noMember hn hi
    · rcases hf : member.field? with _ | field
      · simp [lookupField, hm, hf, bind, Except.bind, pure, Except.pure] at h
      · rcases ho : u.type member.declaringType with e' | owner
        · obtain rfl : e' = e := by simpa [lookupField, hm, hf, ho, bind, Except.bind] using h
          obtain ⟨hn, rfl⟩ := type_eq_error.mp ho
          exact .noOwner hm hf hn
        · simp [lookupField, hm, hf, ho, bind, Except.bind, pure, Except.pure] at h
  · intro h
    have hmember {e : InternalError} (hm : u.member ref = .error e) :
        lookupField u ref = .error e := by
      simp [lookupField, hm, bind, Except.bind]
    cases h with
    | noType hn => exact hmember (member_eq_error.mpr (.inl ⟨hn, rfl⟩))
    | noMember hn hi => exact hmember (member_eq_error.mpr (.inr ⟨_, hn, hi, rfl⟩))
    | noOwner hm hf hn =>
        simp [lookupField, hm, hf, type_eq_error.mpr ⟨hn, rfl⟩, bind, Except.bind]

theorem failure?_eq_none : failure? u ref = none ↔ ∀ e, ¬Dangles u ref e := by
  rw [Option.eq_none_iff_forall_ne_some]
  exact forall_congr' fun e => not_congr failure?_eq_some

theorem firstFailure?_cons (refs : List MemberRef) :
    firstFailure? u (ref :: refs) = (failure? u ref).or (firstFailure? u refs) := by
  unfold firstFailure?
  rw [List.findSome?_cons]
  cases failure? u ref <;> rfl

theorem firstFailure?_eq_none {body : Body} :
    firstFailure? u body.bindings = none ↔ Resolves u body := by
  rw [firstFailure?, List.findSome?_eq_none_iff]
  exact forall₂_congr fun _ _ => failure?_eq_none

theorem firstFailure?_eq_some {body : Body} :
    firstFailure? u body.bindings = some e ↔ FirstDangles u body e := by
  rw [firstFailure?, List.findSome?_eq_some_iff]
  simp only [failure?_eq_some, failure?_eq_none]
  rfl

end

/-! ## One body -/

theorem State.failure_noting (s : State) (u : Universe) (ref : MemberRef) :
    (s.noting u ref).failure = s.failure.or (failure? u ref) := by
  unfold State.noting failure?
  cases lookupField u ref <;> simp

/-- Behind the expressions the first failure of their bindings is kept, unless there was one
    before. -/
def Notes (u : Universe) (s : State) (es : List Expr) (s' : State) : Prop :=
  s'.failure = s.failure.or (firstFailure? u (bindings es))

namespace Notes

variable {u : Universe} {s s₁ s' : State} {es fs : List Expr}

theorem nil : Notes u s [] s := Option.or_none.symm

theorem append (h : Notes u s es s₁) (hf : Notes u s₁ fs s') : Notes u s (es ++ fs) s' := by
  unfold Notes firstFailure? at *
  rw [hf, h, bindings_append, List.findSome?_append, Option.or_assoc]

theorem type (type : Option TypeRef) : Notes u s (typeExprs false type) s := by
  rw [typeExprs_false]
  exact nil

theorem mentioned (type : TypeRef) : Notes u s (type.exprs false) s := Notes.type (some type)

/-- An expression that is bound to no member. -/
theorem node {form : ExprForm} {type : Option TypeRef} {source : Option SourceContext}
    (hf : form.bound? = none) (h : Notes u s (form.exprs false) s') :
    Notes u s (Expr.exprs false ⟨form, type, source⟩) s' := by
  simpa [Notes, hf] using h

/-- A member is looked up before its receiver is edited. -/
theorem member {receiver : Option Expr} {ref : MemberRef} {type : Option TypeRef}
    {source : Option SourceContext}
    (h : Notes u (s.noting u ref) (optionExprs false receiver) s') :
    Notes u s (Expr.exprs false ⟨.member receiver ref, type, source⟩) s' := by
  unfold Notes at *
  rw [h, State.failure_noting, bindings_member, firstFailure?_cons, Option.or_assoc]

/-- The second lookup of a member finds nothing new. -/
theorem member_again {receiver : Option Expr} {ref : MemberRef} {type : Option TypeRef}
    {source : Option SourceContext}
    (h : Notes u (s.noting u ref) (Expr.exprs false ⟨.member receiver ref, type, source⟩) s') :
    Notes u s (Expr.exprs false ⟨.member receiver ref, type, source⟩) s' := by
  unfold Notes at *
  rw [h, State.failure_noting, bindings_member, firstFailure?_cons]
  cases failure? u ref <;> cases s.failure <;> rfl

end Notes

/-- What is noted of each class of code. -/
def noted (u : Universe) : EditRelation State where
  expr e s _ s' := Notes u s (e.exprs false) s'
  walked e s _ s' := Notes u s (e.exprs false) s'
  option e s _ s' := Notes u s (optionExprs false e) s'
  exprs es s _ s' := Notes u s (exprsExprs false es) s'
  stmt st s _ s' := Notes u s (st.exprs false) s'
  labeled st s _ s' := Notes u s (labeledExprs false st) s'
  stmts ss s _ s' := Notes u s (stmtsExprs false ss) s'
  catchers cs s _ s' := Notes u s (catchersExprs false cs) s'
  last b s _ s' := Notes u s (lastExprs false b) s'
  block b s _ s' := Notes u s (b.exprs false) s'

theorem noted_closed (u : Universe) (w : WellKnown) : (noted u).Closed (editor u w) := by
  constructor
  case expr => exact fun h => h
  case member =>
    intro receiver ref type source edit hr
    exact editMember_yields hr (fun _ _ _ h _ => .member h) fun _ _ _ _ _ h _ _ => .member h
  case call =>
    intro callee arguments type source walk h s
    obtain ⟨_, s', run, callee', s₁, arguments', hc, ha, rfl⟩ := h s
    exact ⟨_, s', run, .node rfl (.append hc ha)⟩
  case assignMember =>
    intro receiver ref type targetSource source value editTarget editValue editReceiver ht hv hr
    refine editAssignment_yields ht hv hr (fun s t s₁ v s' _ ht hv => ?_)
      (fun s r s₁ v s' hr hv _ _ => ?_) (fun s r s₁ v s' facts getter hr hv _ _ => ?_)
    · exact ht.member_again.append hv
    · exact hr.member.append hv
    · exact hr.member.append hv
  case assign =>
    intro target value source editTarget editValue hm ht hv
    rw [show (editor u w).assignment = editAssignment u w from rfl, editAssignment_walk hm]
    exact AssignmentParts.walk_yields ht hv fun _ _ _ _ _ ht hv => ht.append hv
  case leaf =>
    intro form type source s h
    have hexprs : form.exprs false = [] := ExprForm.exprs_leaf h
    have hform : form.bound? = none := by
      cases form with
      | member => cases h
      | _ => rfl
    refine .node hform ?_
    rw [hexprs]
    exact .nil
  case qualified | addressOf | assignment | blockExpr => exact fun h => .node rfl h
  case binary | indexer => exact fun h₁ h₂ => .node rfl (.append h₁ h₂)
  case cast => exact fun h => .node rfl (.append h (.mentioned _))
  case constructArray => exact fun h₁ h₂ => .node rfl (.append (.append (.mentioned _) h₁) h₂)
  case construct | constructDelegate => exact fun h => .node rfl (.append (.mentioned _) h)
  case exprsCons | stmtsCons | attachEvent | removeEvent => exact fun h₁ h₂ => .append h₁ h₂
  case catchersCons => exact fun h₁ h₂ => .append (.append (.type _) h₁) h₂
  case branch | protect => exact fun h₁ h₂ h₃ => .append (.append h₁ h₂) h₃
  case loop => exact fun h₁ h₂ h₃ h₄ => .append (.append (.append h₁ h₂) h₃) h₄
  case declaration => exact fun h => .append (.mentioned _) h
  case ret | raise | expression | labeledStmt | blockStmt | optionSome | labeledSome | lastSome |
    block => exact fun h => h
  case goto | snippet | optionNone | exprsNil | labeledNone | stmtsNil | catchersNil | lastNone =>
    exact .nil

theorem failure_editBody (w : WellKnown) (u : Universe) (ref : MemberRef) (body : Body)
    (instrumented : Nat) :
    (editBody w u ref body instrumented).failure = firstFailure? u body.bindings := by
  have h := (noted_closed u w).editBlock body.block { tempCount := body.tempCount }
  exact h.trans Option.none_or

/-! ## One method after the other -/

/-- What instrumentation makes of the body of a method. -/
def instrument (w : WellKnown) (u : Universe) (ref : MemberRef) (body : Body) : Body :=
  (editBody w u ref body 0).body

/-- The body of a method after a run has visited the methods `done`. -/
def bodyAfter (w : WellKnown) (u : Universe) (done : List MemberRef) (ref : MemberRef) :
    Option Body :=
  (u.method ref).toOption.bind fun m => m.body.map (instrument w u ref)^[done.count ref]

/-- The universe differs from `u` in this only: each body has been instrumented as often as its
    method occurs among `done`. -/
structure Instrumented (w : WellKnown) (u : Universe) (done : List MemberRef) (u' : Universe) :
    Prop where
  outline_eq : u'.outline = u.outline
  method_eq : ∀ ref, u'.method ref =
    (u.method ref).map fun m => { m with body := m.body.map (instrument w u ref)^[done.count ref] }

section

variable {w : WellKnown} {u u' : Universe} {done : List MemberRef} {ref : MemberRef}

theorem bodyAfter_of_not_mem (h : ref ∉ done) :
    bodyAfter w u done ref = (u.method ref).toOption.bind Method.body := by
  simp [bodyAfter, List.count_eq_zero.mpr h]

theorem bodyAfter_of_nodup {refs : List MemberRef} (hn : refs.Nodup)
    (hp : done ++ [ref] <+: refs) :
    bodyAfter w u done ref = (u.method ref).toOption.bind Method.body := by
  refine bodyAfter_of_not_mem fun hmem => ?_
  have hnodup := hn.sublist hp.sublist
  exact (List.nodup_append.mp hnodup).2.2 ref hmem ref List.mem_cons_self rfl

theorem bodyAfter_eq {m : Method} (hm : u.method ref = .ok m) :
    bodyAfter w u done ref = m.body.map (instrument w u ref)^[done.count ref] := by
  rw [bodyAfter, hm]
  rfl

/-- Bodies are instrumented by the outline only. -/
theorem body_editBody (h : u'.outline = u.outline) (body : Body) (instrumented : Nat) :
    (editBody w u' ref body instrumented).body = instrument w u ref body := by
  unfold instrument editBody
  rw [← editor_outline u', h, editor_outline]
  rfl

theorem firstFailure?_of_outline (h : u'.outline = u.outline) :
    firstFailure? u' = firstFailure? u := by
  have hfailure : failure? u' = failure? u := by
    funext ref
    unfold failure?
    rw [← lookupField_outline u', h, lookupField_outline]
  funext refs
  rw [firstFailure?, hfailure, firstFailure?]

namespace Instrumented

theorem start (w : WellKnown) (u : Universe) : Instrumented w u [] u := by
  refine ⟨rfl, fun ref => ?_⟩
  cases u.method ref <;> simp [Except.map]

/-- Methods that were not visited are as they were. -/
theorem method_of_not_mem (h : Instrumented w u done u') (hr : ref ∉ done) :
    u'.method ref = u.method ref := by
  rw [h.method_eq, List.count_eq_zero.mpr hr]
  cases u.method ref <;> simp [Except.map]

theorem method_ok (h : Instrumented w u done u') {m : Method} (hm : u.method ref = .ok m) :
    u'.method ref = .ok { m with body := bodyAfter w u done ref } := by
  rw [h.method_eq, bodyAfter_eq hm, hm]
  rfl

/-- Visits of other methods do not count. -/
theorem method_snoc_of_ne {ref' : MemberRef} (hne : ref' ≠ ref) (h : Instrumented w u done u') :
    u'.method ref' = (u.method ref').map fun m =>
      { m with body := m.body.map (instrument w u ref')^[(done ++ [ref]).count ref'] } := by
  rw [h.method_eq, List.count_append, List.count_singleton, if_neg]
  · rfl
  · simpa using hne.symm

/-- A method without a body. -/
theorem skip (h : Instrumented w u done u') {m : Method} (hm : u.method ref = .ok m)
    (hb : m.body = none) : Instrumented w u (done ++ [ref]) u' := by
  refine ⟨h.outline_eq, fun ref' => ?_⟩
  by_cases hne : ref' = ref
  · subst hne
    rw [h.method_eq, hm]
    simp [Except.map, hb]
  · exact h.method_snoc_of_ne hne

theorem snoc (h : Instrumented w u done u') {m : Method} (hm : u.method ref = .ok m) {body : Body}
    (hb : bodyAfter w u done ref = some body) :
    Instrumented w u (done ++ [ref]) (u'.setBody ref (instrument w u ref body)) := by
  have houtline : (u'.setBody ref (instrument w u ref body)).outline = u'.outline :=
    Universe.outline_modifyMethod u' ref fun _ => rfl
  refine ⟨houtline.trans h.outline_eq, fun ref' => ?_⟩
  by_cases hne : ref' = ref
  · subst hne
    rw [bodyAfter_eq hm] at hb
    obtain ⟨original, horiginal, rfl⟩ := Option.map_eq_some_iff.mp hb
    have hcount : (done ++ [ref']).count ref' = done.count ref' + 1 := by simp
    rw [Universe.method_setBody (h.method_ok hm), hm, hcount, Function.iterate_succ']
    simp [Except.map, horiginal]
  · rw [Universe.setBody, Universe.method_modifyMethod_of_ne u' hne]
    exact h.method_snoc_of_ne hne

end Instrumented

/-- How the visit of a method fails behind those of the methods `done`. -/
def failureAfter? (w : WellKnown) (u : Universe) (done : List MemberRef) (ref : MemberRef) :
    Option InternalError :=
  (bodyAfter w u done ref).bind fun body => firstFailure? u body.bindings

theorem failureAfter?_eq_none : failureAfter? w u done ref = none ↔
    ∀ body, bodyAfter w u done ref = some body → Resolves u body := by
  unfold failureAfter?
  cases bodyAfter w u done ref <;> simp [firstFailure?_eq_none]

theorem failureAfter?_eq_some {e : InternalError} : failureAfter? w u done ref = some e ↔
    ∃ body, bodyAfter w u done ref = some body ∧ FirstDangles u body e := by
  simp [failureAfter?, Option.bind_eq_some_iff, firstFailure?_eq_some]

variable {s : PassState Nat}

/-- The visit of a method instruments its body, whether it fails or not. -/
theorem editMethod_run (h : Instrumented w u done s.types) (hr : u.IsMethod ref) :
    ∃ s', ((pass w).editMethod ref).run s =
        ((failureAfter? w u done ref).elim (.ok ()) .error, s') ∧
      Instrumented w u (done ++ [ref]) s'.types := by
  obtain ⟨m, hm⟩ := hr
  have hm' := h.method_ok hm
  rcases hb : bodyAfter w u done ref with _ | body
  · have hnone : m.body = none := by
      rw [bodyAfter_eq hm] at hb
      exact Option.map_eq_none_iff.mp hb
    refine ⟨s, ?_, h.skip hm hnone⟩
    rw [BodyPass.editMethod_bodiless hm' hb, failureAfter?, hb]
    rfl
  · have houtline : (s.types.bodiless ref).outline = u.outline :=
      (Universe.outline_bodiless s.types ref).trans h.outline_eq
    generalize hedited : (pass w).editBody (s.types.bodiless ref) ref body s.state = edited
    have hbody : edited.body = instrument w u ref body := by
      rw [← hedited]
      exact body_editBody houtline body s.state
    have hfailure : edited.failure = failureAfter? w u done ref := by
      rw [← hedited, failureAfter?, hb, ← firstFailure?_of_outline houtline]
      exact failure_editBody w _ ref body s.state
    refine ⟨⟨edited.state, s.types.setBody ref edited.body, s.trace ++ edited.trace⟩, ?_, ?_⟩
    · rw [BodyPass.editMethod_body hm' hb hedited, hfailure]
      cases failureAfter? w u done ref <;> rfl
    · rw [hbody]
      exact h.snoc hm hb

/-- The run gets to its end, or it ends at the first method whose visit fails. -/
theorem editMethods_run (h : Instrumented w u done s.types) {refs : List MemberRef}
    (hr : ∀ ref ∈ refs, u.IsMethod ref) :
    (∃ s', ((pass w).editMethods refs).run s = (.ok (), s') ∧
      Instrumented w u (done ++ refs) s'.types ∧
      ∀ before ref, before ++ [ref] <+: refs → failureAfter? w u (done ++ before) ref = none) ∨
    ∃ before ref e s', before ++ [ref] <+: refs ∧
      failureAfter? w u (done ++ before) ref = some e ∧
      (∀ before' ref', before' ++ [ref'] <+: before →
        failureAfter? w u (done ++ before') ref' = none) ∧
      ((pass w).editMethods refs).run s = (.error e, s') ∧
      Instrumented w u (done ++ (before ++ [ref])) s'.types := by
  induction refs generalizing done s with
  | nil =>
      refine .inl ⟨s, rfl, by rwa [List.append_nil], fun before ref hp => ?_⟩
      simp at hp
  | cons first refs ih =>
      obtain ⟨s₁, hrun, h₁⟩ := editMethod_run h (hr first List.mem_cons_self)
      have hrest : ∀ ref ∈ refs, u.IsMethod ref := fun ref href =>
        hr ref (List.mem_cons_of_mem first href)
      rcases hf : failureAfter? w u done first with _ | e
      · rw [hf] at hrun
        have hcons : ((pass w).editMethods (first :: refs)).run s =
            ((pass w).editMethods refs).run s₁ := PassM.bind_run hrun
        -- behind the first method the run goes on with one visit more
        have hfirst {before : List MemberRef} {ref : MemberRef} {xs : List MemberRef}
            (hxs : ∀ before ref, before ++ [ref] <+: xs →
              failureAfter? w u (done ++ [first] ++ before) ref = none)
            (hp : before ++ [ref] <+: first :: xs) :
            failureAfter? w u (done ++ before) ref = none := by
          rcases before with _ | ⟨first', before⟩
          · obtain ⟨rfl, -⟩ := List.cons_prefix_cons.mp hp
            rwa [List.append_nil]
          · obtain ⟨rfl, hp'⟩ := List.cons_prefix_cons.mp hp
            rw [List.append_cons]
            exact hxs before ref hp'
        rw [hcons]
        rcases ih h₁ hrest with
          ⟨s', hrun', h', hall⟩ | ⟨before, ref, e, s', hp, he, hall, hrun', h'⟩
        · refine .inl ⟨s', hrun', ?_, fun before ref => hfirst hall⟩
          rwa [List.append_cons]
        · refine .inr ⟨first :: before, ref, e, s', List.cons_prefix_cons.mpr ⟨rfl, hp⟩, ?_,
            fun before' ref' => hfirst hall, hrun', ?_⟩
          · rwa [List.append_cons]
          · rwa [List.cons_append, List.append_cons]
      · rw [hf] at hrun
        refine .inr ⟨[], first, e, s₁, List.cons_prefix_cons.mpr ⟨rfl, List.nil_prefix⟩, ?_,
          fun before' ref' hp => ?_, PassM.bind_failed hrun, h₁⟩
        · rwa [List.append_nil]
        · simp at hp

end

/-- The run over a unit, in the same two cases. -/
theorem editUnit_cases (w : WellKnown) (unit : CompilationUnit) (s : PassState Nat)
    {refs : List MemberRef} (h : s.types.unitMethods unit = .ok refs) :
    (∃ s', ((pass w).editUnit unit).run s = (.ok (), s') ∧ Instrumented w s.types refs s'.types ∧
      ∀ before ref, before ++ [ref] <+: refs → failureAfter? w s.types before ref = none) ∨
    ∃ before ref e s', before ++ [ref] <+: refs ∧ failureAfter? w s.types before ref = some e ∧
      (∀ before' ref', before' ++ [ref'] <+: before →
        failureAfter? w s.types before' ref' = none) ∧
      ((pass w).editUnit unit).run s = (.error e, s') ∧
      Instrumented w s.types (before ++ [ref]) s'.types := by
  have hrun := (pass w).editUnit_run h
  rw [show (pass w).beginUnit unit s.state = s.state from rfl] at hrun
  rcases editMethods_run (s := ⟨s.state, s.types, s.trace ++
      [.editingBodies (pass w).name refs.length]⟩) (.start w s.types)
      (fun ref href => Universe.isMethod_of_unitMethods h href) with
    ⟨s', hmethods, hdone, hall⟩ | ⟨before, ref, e, s', hp, he, hall, hmethods, hdone⟩
  · rw [hmethods] at hrun
    exact .inl ⟨s', hrun, hdone, hall⟩
  · rw [hmethods] at hrun
    exact .inr ⟨before, ref, e, s', hp, he, hall, hrun, hdone⟩

/-- Instrumentation of a unit fails exactly if one of the bodies that it meets holds a binding that
    dangles. The failure is that of the first such binding in the first such body. What is met up to
    there has been instrumented, once for each time that the unit lists it, and the other methods
    are as they were. A unit that lists no method twice meets the bodies as they are. -/
theorem editUnit_fails_iff (w : WellKnown) (unit : CompilationUnit) (s : PassState Nat)
    {refs : List MemberRef} (h : s.types.unitMethods unit = .ok refs) :
    let u := s.types
    let outcome := ((pass w).editUnit unit).run s
    ((∃ e, outcome.1 = .error e) ↔ ∃ before ref body binding e, before ++ [ref] <+: refs ∧
      bodyAfter w u before ref = some body ∧ binding ∈ body.bindings ∧ Dangles u binding e) ∧
    (∀ e, outcome.1 = .error e → ∃ before ref body, before ++ [ref] <+: refs ∧
      bodyAfter w u before ref = some body ∧ FirstDangles u body e ∧
      (∀ before' ref' body', before' ++ [ref'] <+: before →
        bodyAfter w u before' ref' = some body' → Resolves u body') ∧
      Instrumented w u (before ++ [ref]) outcome.2.types ∧
      ∀ later, later ∉ before ++ [ref] → outcome.2.types.method later = u.method later) ∧
    (outcome.1 = .ok () → Instrumented w u refs outcome.2.types) ∧
    (refs.Nodup → ∀ before ref, before ++ [ref] <+: refs →
      bodyAfter w u before ref = (u.method ref).toOption.bind Method.body) := by
  rcases editUnit_cases w unit s h with
    ⟨s', hrun, hdone, hall⟩ | ⟨before, ref, e, s', hp, he, hall, hrun, hdone⟩
  · simp only [hrun]
    refine ⟨⟨?_, ?_⟩, ?_, fun _ => hdone, fun hn _ _ => bodyAfter_of_nodup hn⟩
    · rintro ⟨e, he⟩
      cases he
    · rintro ⟨before, ref, body, binding, e, hp, hb, hmem, hd⟩
      exact absurd hd (failureAfter?_eq_none.mp (hall before ref hp) body hb binding hmem e)
    · intro e he
      cases he
  · simp only [hrun]
    obtain ⟨body, hb, hfirst⟩ := failureAfter?_eq_some.mp he
    refine ⟨⟨fun _ => ?_, fun _ => ⟨e, rfl⟩⟩, ?_, ?_, fun hn _ _ => bodyAfter_of_nodup hn⟩
    · obtain ⟨earlier, binding, later, hbindings, hd, -⟩ := hfirst
      refine ⟨before, ref, body, binding, e, hp, hb, ?_, hd⟩
      rw [hbindings]
      exact List.mem_append_right earlier List.mem_cons_self
    · rintro e' ⟨⟩
      refine ⟨before, ref, body, hp, hb, hfirst, fun before' ref' body' hp' hb' => ?_, hdone,
        fun later hlater => hdone.method_of_not_mem hlater⟩
      exact failureAfter?_eq_none.mp (hall before' ref' hp') body' hb'
    · intro hok
      cases hok

/-- The wallet with more methods, and with another getter in its contract. -/
def walletWith (getter : MemberRef) (bodies : List Body) : Universe :=
  Wallet.types.modifyType Wallet.walletId fun t => { t with
    members := t.members ++ bodies.map fun body =>
      Wallet.memberOf Wallet.walletId "Peek" (.method { body := some body })
    contract := some { getter := some getter, field := some Wallet.frame } }

/-- `this.coins` -/
def readCoins : Body where
  block := { statements := [.expression (Wallet.coinsOf Wallet.self)] }

/-- An assignment to the member 9 of a wallet from its member 8. -/
def strayCopy : Body where
  block := { statements := [.assignment
    (ExprForm.member (some Wallet.self) ⟨Wallet.walletId, 9⟩).expr
    (ExprForm.member (some Wallet.self) ⟨Wallet.walletId, 8⟩).expr] }

/-- The second of three bodies fails. -/
theorem editUnit_fails_at_strayCopy :
    let u := walletWith Wallet.getFrame [readCoins, strayCopy, readCoins]
    let unit := Wallet.unitOf [Wallet.walletId]
    let refs : List MemberRef := [2, 3, 4, 5, 6].map (⟨Wallet.walletId, ·⟩)
    u.unitMethods unit = .ok refs ∧
    ∃ e, (((pass Wallet.checks).editUnit unit).run ⟨0, u, []⟩).1 = .error e := by
  intro u unit refs
  have hrefs : u.unitMethods unit = .ok refs := toOption_eq_some.mp (by decide +kernel)
  refine ⟨hrefs, ((editUnit_fails_iff Wallet.checks unit ⟨0, u, []⟩ hrefs).1).mpr
    ⟨[2, 3, 4].map (⟨Wallet.walletId, ·⟩), ⟨Wallet.walletId, 5⟩, strayCopy, ⟨Wallet.walletId, 9⟩,
      .danglingMember ⟨Wallet.walletId, 9⟩, by decide, rfl, by decide, ?_⟩⟩
  exact .noMember rfl rfl

/-- All that the bodies are bound to can be looked up. But the unit lists the wallet twice, and the
    getter that the first visit puts into the last method is not there. -/
theorem editUnit_fails_on_second_visit :
    let getter : MemberRef := ⟨Wallet.walletId, 42⟩
    let u := walletWith getter [readCoins]
    let unit := Wallet.unitOf [Wallet.walletId, Wallet.walletId]
    let refs : List MemberRef := [2, 3, 4, 2, 3, 4].map (⟨Wallet.walletId, ·⟩)
    u.unitMethods unit = .ok refs ∧
    (∀ ref ∈ refs, ∀ body ∈ (u.method ref).toOption.bind Method.body, Resolves u body) ∧
    ∃ e, (((pass Wallet.checks).editUnit unit).run ⟨0, u, []⟩).1 = .error e := by
  intro getter u unit refs
  refine ⟨toOption_eq_some.mp (by decide +kernel), ?_, toOption_eq_none.mp (by decide +kernel)⟩
  simp only [← firstFailure?_eq_none]
  decide +kernel

end Guard

end MiddleEnd
