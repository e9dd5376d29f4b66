/-
  What a run over methods reaches. A condition that a revision establishes holds of every method
  that has been revised, as long as later revisions keep it (`holds_of_reviseAll`). Where the
  revisions change nothing the universe stays (`reviseAll_fixed`), and a pass that finds nothing to
  do in any body ends as it began (`editMethods_rests`).
-/
import MiddleEnd.Proofs.Pass.Frame
import MiddleEnd.Proofs.Pass.Revision

namespace MiddleEnd

/-! ## What revisions reach -/

namespace Reviser

/-- The condition holds of every method that the reviser has been at. -/
def Establishes (f : Reviser) (P : Universe → MemberRef → Method → Prop) : Prop :=
  ∀ outline ref (m : Method) r, f outline ref m.body = some r → P outline ref (r.apply m)

/-- If the condition holds of a method, it does so behind the reviser. -/
def Keeps (f : Reviser) (P : Universe → MemberRef → Method → Prop) : Prop :=
  ∀ outline ref (m : Method) r, f outline ref m.body = some r → P outline ref m →
    P outline ref (r.apply m)

end Reviser

namespace Universe

/-- The condition holds of the method, by the outline of the universe. -/
def Holds (P : Universe → MemberRef → Method → Prop) (u : Universe) (ref : MemberRef) : Prop :=
  ∀ m, u.method ref = .ok m → P u.outline ref m

variable {f : Reviser} {P : Universe → MemberRef → Method → Prop} {u u' : Universe}
  {ref : MemberRef}

theorem revise_eq_some (h : u.revise f ref = some u') :
    ∃ m r, u.method ref = .ok m ∧ f u.outline ref m.body = some r ∧
      u' = u.modifyMethod ref r.apply := by
  obtain ⟨m, hm, h⟩ := Option.bind_eq_some_iff.mp h
  obtain ⟨r, hr, h⟩ := Option.bind_eq_some_iff.mp h
  exact ⟨m, r, toOption_eq_some.mp hm, hr, (Option.some.inj h).symm⟩

theorem outline_revise (h : u.revise f ref = some u') : u'.outline = u.outline := by
  obtain ⟨m, r, -, -, rfl⟩ := revise_eq_some h
  exact outline_apply u ref r

theorem Holds.revise_self (hf : f.Establishes P) (h : u.revise f ref = some u') :
    Holds P u' ref := by
  obtain ⟨m, r, hm, hr, rfl⟩ := revise_eq_some h
  intro m' hm'
  obtain ⟨m'', hm'', rfl⟩ := method_modifyMethod.mp hm'
  obtain rfl : m = m'' := Except.ok.inj (hm.symm.trans hm'')
  rw [outline_apply, if_pos rfl]
  exact hf _ _ _ _ hr

theorem Holds.revise (hf : f.Keeps P) {ref' : MemberRef} (h : u.revise f ref' = some u')
    (hP : Holds P u ref) : Holds P u' ref := by
  obtain ⟨m, r, hm, hr, rfl⟩ := revise_eq_some h
  intro m' hm'
  obtain ⟨m'', hm'', rfl⟩ := method_modifyMethod.mp hm'
  rw [outline_apply]
  by_cases href : ref = ref'
  · subst href
    obtain rfl : m = m'' := Except.ok.inj (hm.symm.trans hm'')
    rw [if_pos rfl]
    exact hf _ _ _ _ hr (hP m hm)
  · rw [if_neg href]
    exact hP m'' hm''

theorem reviseAll_cons {refs : List MemberRef} (h : u.reviseAll f (ref :: refs) = some u') :
    ∃ u₁, u.revise f ref = some u₁ ∧ u₁.reviseAll f refs = some u' :=
  Option.bind_eq_some_iff.mp h

theorem outline_reviseAll {refs : List MemberRef} (h : u.reviseAll f refs = some u') :
    u'.outline = u.outline := by
  induction refs generalizing u with
  | nil => rw [Option.some.inj h]
  | cons ref refs ih =>
      obtain ⟨u₁, h₁, h⟩ := reviseAll_cons h
      rw [ih h, outline_revise h₁]

theorem Holds.reviseAll (hf : f.Keeps P) {refs : List MemberRef}
    (h : u.reviseAll f refs = some u') (hP : Holds P u ref) : Holds P u' ref := by
  induction refs generalizing u with
  | nil => rwa [← Option.some.inj h]
  | cons first refs ih =>
      obtain ⟨u₁, h₁, h⟩ := reviseAll_cons h
      exact ih h (hP.revise hf h₁)

theorem holds_of_reviseAll (hf : f.Establishes P) {refs : List MemberRef}
    (h : u.reviseAll f refs = some u') : ∀ ref ∈ refs, Holds P u' ref := by
  induction refs generalizing u with
  | nil => simp
  | cons first refs ih =>
      obtain ⟨u₁, h₁, h⟩ := reviseAll_cons h
      have hkeeps : f.Keeps P := fun outline ref m r hr _ => hf outline ref m r hr
      exact List.forall_mem_cons.mpr ⟨(Holds.revise_self hf h₁).reviseAll hkeeps h, ih h⟩

/-! ## The methods of a unit -/

theorem unitMethods_outline (u : Universe) (unit : CompilationUnit) :
    u.outline.unitMethods unit = u.unitMethods unit := by
  have hmethods : u.outline.typeMethods (u.outline.typeCount + 1) =
      u.typeMethods (u.typeCount + 1) := by
    funext id
    rw [show u.outline.typeCount = u.typeCount from outlineView.typeCount_view u]
    exact outlineView.typeMethods_view u _ id
  unfold unitMethods
  rw [hmethods]

theorem reviseUnit_eq_some {unit : CompilationUnit} :
    u.reviseUnit f unit.root.allTypes = some u' ↔
      ∃ refs, u.unitMethods unit = .ok refs ∧ u.reviseAll f refs = some u' := by
  unfold reviseUnit unitMethods
  rcases unit.root.allTypes.mapM (u.typeMethods (u.typeCount + 1)) with e | methods
  · simp [Except.toOption, bind, Except.bind]
  · simp [Except.toOption, bind, Except.bind, pure, Except.pure]

/-- A revision of a method that is fixed changes nothing. -/
def Fixed (f : Reviser) (outline : Universe) (ref : MemberRef) (m : Method) : Prop :=
  ∃ r, f outline ref m.body = some r ∧ r.apply m = m

theorem reviseAll_fixed {refs : List MemberRef} (hr : ∀ ref ∈ refs, u.IsMethod ref)
    (hf : ∀ ref ∈ refs, Holds (Fixed f) u ref) : u.reviseAll f refs = some u := by
  induction refs with
  | nil => rfl
  | cons ref refs ih =>
      obtain ⟨⟨m, hm⟩, hr⟩ := List.forall_mem_cons.mp hr
      obtain ⟨hfirst, hf⟩ := List.forall_mem_cons.mp hf
      obtain ⟨r, hrevision, hsame⟩ := hfirst m hm
      have hrevise : u.revise f ref = some u := by
        rw [revise_ok hm hrevision, modifyMethod_congr hm (g := fun m => m) hsame,
          modifyMethod_self]
      show (u.revise f ref).bind (fun u => u.reviseAll f refs) = some u
      rw [hrevise]
      exact ih hr hf

theorem isMethod_outline : u.outline.IsMethod ref ↔ u.IsMethod ref := by
  have hview : u.outline.method ref = (u.method ref).map Method.skeleton :=
    outlineView.method_view u ref
  unfold IsMethod
  rw [hview]
  cases u.method ref <;> simp [Except.map]

/-- A reviser that never fails gets through. -/
theorem reviseAll_total (hf : ∀ outline ref body, ∃ r, f outline ref body = some r)
    {refs : List MemberRef} (hr : ∀ ref ∈ refs, u.IsMethod ref) :
    ∃ u', u.reviseAll f refs = some u' := by
  induction refs generalizing u with
  | nil => exact ⟨u, rfl⟩
  | cons ref refs ih =>
      obtain ⟨⟨m, hm⟩, hr⟩ := List.forall_mem_cons.mp hr
      obtain ⟨r, hrevision⟩ := hf u.outline ref m.body
      have hfirst := revise_ok hm hrevision
      have hrest : ∀ ref' ∈ refs, (u.modifyMethod ref r.apply).IsMethod ref' := by
        intro ref' href'
        rw [← isMethod_outline, outline_apply, isMethod_outline]
        exact hr ref' href'
      obtain ⟨u', hu'⟩ := ih hrest
      exact ⟨u', Option.bind_eq_some_iff.mpr ⟨_, hfirst, hu'⟩⟩

theorem setBody_self {m : Method} {body : Body} (hm : u.method ref = .ok m)
    (hb : m.body = some body) : u.setBody ref body = u := by
  have hsame : { m with body := some body } = m := by rw [← hb]
  rw [setBody, modifyMethod_congr hm (g := fun m => m) hsame, modifyMethod_self]

end Universe

theorem EditedBody.result?_eq_some {σ : Type} {e : EditedBody σ} {body : Body} :
    e.result? = some body ↔ e.failure = none ∧ e.body = body := by
  unfold result?
  rcases e.failure with _ | failure <;> simp

theorem PassM.Ends.runs {σ α : Type} {action : PassM σ α} {s : PassState σ} {u : Universe}
    {post : PassState σ → Prop} (h : action.Ends s (some u) post) :
    action.Runs s fun _ s' => s'.types = u ∧ post s' := by
  unfold Ends at h
  rcases hrun : action.run s with ⟨e | a, s'⟩
  · rw [hrun] at h
    cases h
  · rw [hrun] at h
    exact ⟨a, s', hrun, (Option.some.inj h.1).symm, h.2⟩

/-! ## Runs without effect -/

/-- Over methods in whose bodies the pass finds nothing to do it gets to its end, and nothing has
    happened. -/
theorem BodyPass.editMethods_rests {σ : Type} {pass : BodyPass σ}
    (hfinish : ∀ ref, pass.finishMethod ref = pure ()) {s : PassState σ} {refs : List MemberRef}
    (hr : ∀ ref ∈ refs, s.types.IsMethod ref)
    (hrests : ∀ ref ∈ refs, ∀ m body, s.types.method ref = .ok m → m.body = some body →
      pass.editBody (s.types.bodiless ref) ref body s.state = { body, state := s.state }) :
    (pass.editMethods refs).run s = (.ok (), s) := by
  induction refs with
  | nil => rfl
  | cons ref refs ih =>
      obtain ⟨⟨m, hm⟩, hr⟩ := List.forall_mem_cons.mp hr
      obtain ⟨hfirst, hrests⟩ := List.forall_mem_cons.mp hrests
      have hmethod : (pass.editMethod ref).run s = (.ok (), s) := by
        rcases hb : m.body with _ | body
        · rw [editMethod_bodiless hm hb, hfinish]
          rfl
        · rw [editMethod_body hm hb (hfirst m body hm hb), Universe.setBody_self hm hb,
            List.append_nil, hfinish]
          rfl
      exact (PassM.bind_run hmethod).trans (ih hr hrests)

end MiddleEnd
