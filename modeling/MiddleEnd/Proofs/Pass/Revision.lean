/-
  Passes as revisions of methods. A pass makes of each method what its body and the outline of the
  universe say, or fails; nothing else that other methods hold is looked at. So two methods may be
  revised in either order, and what becomes of the universe does not depend on the order of the
  types of a unit (`reviseUnit_perm`).
-/
import MiddleEnd.Proofs.Pass.Run
import MiddleEnd.Proofs.Universe.Outline

namespace MiddleEnd

/-- What a pass changes of a method. -/
structure Revision where
  body : Option Body
  /-- Absent if the inferred preconditions stay. -/
  implicitPreconditions : Option (List Precondition) := none

def Revision.apply (r : Revision) (m : Method) : Method :=
  { m with
    body := r.body
    implicitPreconditions := r.implicitPreconditions.getD m.implicitPreconditions }

/-- The revision of a method, by the outline of the universe, the name of the method and its body.
    There is none if the pass fails. -/
abbrev Reviser := Universe → MemberRef → Option Body → Option Revision

/-- Only bodies are revised. -/
def Reviser.ofBodies (edited : Universe → MemberRef → Body → Option Body) : Reviser :=
  fun outline ref body =>
    match body with
    | none => some { body := none }
    | some body => (edited outline ref body).map fun body => { body := some body }

namespace Universe

def revise (f : Reviser) (u : Universe) (ref : MemberRef) : Option Universe := do
  let method ← (u.method ref).toOption
  let revision ← f u.outline ref method.body
  return u.modifyMethod ref revision.apply

def reviseAll (f : Reviser) (u : Universe) (refs : List MemberRef) : Option Universe :=
  refs.foldlM (fun u ref => u.revise f ref) u

/-- Revises every method of the types, nested types included. -/
def reviseUnit (f : Reviser) (u : Universe) (types : List TypeId) : Option Universe := do
  let methods ← (types.mapM (u.typeMethods (u.typeCount + 1))).toOption
  u.reviseAll f methods.flatten

variable {f : Reviser}

section

variable {u : Universe} {ref : MemberRef} {m : Method}

theorem revise_ok {r : Revision} (hm : u.method ref = .ok m)
    (hr : f u.outline ref m.body = some r) :
    u.revise f ref = some (u.modifyMethod ref r.apply) := by
  simp [revise, hm, hr, Except.toOption]

theorem revise_eq_none (hm : u.method ref = .ok m) (hr : f u.outline ref m.body = none) :
    u.revise f ref = none := by
  simp [revise, hm, hr, Except.toOption]

theorem revise_missing {e : InternalError} (hm : u.method ref = .error e) :
    u.revise f ref = none := by
  simp [revise, hm, Except.toOption]

end

/-! ## The order of revisions -/

theorem outline_apply (u : Universe) (ref : MemberRef) (r : Revision) :
    (u.modifyMethod ref r.apply).outline = u.outline :=
  outline_modifyMethod u ref fun _ => rfl

theorem outline_bodiless (u : Universe) (ref : MemberRef) : (u.bodiless ref).outline = u.outline :=
  outline_modifyMethod u ref fun _ => rfl

theorem method_apply_of_ne (u : Universe) {ref ref' : MemberRef} (h : ref' ≠ ref) (r : Revision) :
    ((u.modifyMethod ref r.apply).method ref').toOption = (u.method ref').toOption := by
  refine Option.ext fun method => ?_
  rw [toOption_eq_some, toOption_eq_some, method_modifyMethod]
  simp [if_neg h]

/-- Two revisions of which the second does not see the first. -/
theorem revise_revise {u : Universe} {ref ref' : MemberRef} (h : ref' ≠ ref) :
    (u.revise f ref).bind (fun u => u.revise f ref') =
      (u.method ref).toOption.bind fun m => (f u.outline ref m.body).bind fun r =>
        (u.method ref').toOption.bind fun m' => (f u.outline ref' m'.body).bind fun r' =>
          some ((u.modifyMethod ref r.apply).modifyMethod ref' r'.apply) := by
  unfold revise
  simp only [bind, pure, Option.bind_assoc, Option.bind_some, outline_apply, method_apply_of_ne u h]

theorem revise_comm (u : Universe) (ref ref' : MemberRef) :
    (u.revise f ref).bind (fun u => u.revise f ref') =
      (u.revise f ref').bind (fun u => u.revise f ref) := by
  by_cases h : ref = ref'
  · rw [h]
  · rw [revise_revise (Ne.symm h), revise_revise h]
    rcases (u.method ref).toOption with _ | m <;> rcases (u.method ref').toOption with _ | m' <;>
      simp only [Option.bind_none, Option.bind_some, Option.bind_fun_none]
    rcases f u.outline ref m.body with _ | r <;> rcases f u.outline ref' m'.body with _ | r' <;>
      simp only [Option.bind_none, Option.bind_some]
    rw [modifyMethod_comm u h]

theorem reviseAll_perm {refs refs' : List MemberRef} (h : refs.Perm refs') (u : Universe) :
    u.reviseAll f refs = u.reviseAll f refs' := by
  induction h generalizing u with
  | nil => rfl
  | cons ref _ ih =>
      show (u.revise f ref).bind _ = (u.revise f ref).bind _
      exact congrArg _ (funext ih)
  | swap ref ref' refs =>
      show (u.revise f ref').bind (fun u => (u.revise f ref).bind fun u => u.reviseAll f refs) =
        (u.revise f ref).bind (fun u => (u.revise f ref').bind fun u => u.reviseAll f refs)
      rw [← Option.bind_assoc, ← Option.bind_assoc, revise_comm]
  | trans _ _ ih₁ ih₂ => exact (ih₁ u).trans (ih₂ u)

/-- The order of the types does not matter. -/
theorem reviseUnit_perm {types types' : List TypeId} (h : types.Perm types') (u : Universe) :
    u.reviseUnit f types = u.reviseUnit f types' := by
  have hfound : ∀ {types types' : List TypeId} {u' : Universe}, types.Perm types' →
      u.reviseUnit f types = some u' → u.reviseUnit f types' = some u' := by
    intro types types' u' h hu
    obtain ⟨found, hfound, hu⟩ := Option.bind_eq_some_iff.mp hu
    rcases hmap : types.mapM (u.typeMethods (u.typeCount + 1)) with e | found'
    · rw [hmap] at hfound
      cases hfound
    · rw [hmap] at hfound
      obtain rfl := Option.some.inj hfound
      obtain ⟨found', hfound', hperm⟩ := mapM_perm h hmap
      rw [reviseUnit, hfound', ← hu, reviseAll_perm hperm]
      rfl
  exact Option.ext fun u' => ⟨hfound h, hfound h.symm⟩

end Universe

/-! ## How a pass ends -/

namespace PassM

variable {σ τ α β : Type}

/-- From the state `s` the action succeeds and leaves the universe `result`, or there is no result
    and the action fails. -/
def Ends (action : PassM σ α) (s : PassState σ) (result : Option Universe)
    (post : PassState σ → Prop) : Prop :=
  match action.run s with
  | (.ok _, s') => result = some s'.types ∧ post s'
  | (.error _, _) => result = none

namespace Ends

variable {action : PassM σ α} {next : α → PassM σ β} {s s' : PassState σ}
  {result : Option Universe} {post : PassState σ → Prop}

theorem mono {post' : PassState σ → Prop} (h : Ends action s result post)
    (hp : ∀ s', post s' → post' s') : Ends action s result post' := by
  unfold Ends at *
  rcases hrun : action.run s with ⟨e | a, s'⟩
  · rw [hrun] at h
    exact h
  · rw [hrun] at h
    exact ⟨h.1, hp s' h.2⟩

theorem pure {a : α} (hr : result = some s.types) (hp : post s) :
    Ends (Pure.pure a) s result post := ⟨hr, hp⟩

/-- Goes on behind an action whose run is known. -/
theorem step {a : α} (h : action.run s = (.ok a, s')) (hn : Ends (next a) s' result post) :
    Ends (action >>= next) s result post := by
  unfold Ends at *
  rw [bind_run h]
  exact hn

theorem fail {e : InternalError} (h : action.run s = (.error e, s')) (hr : result = none) :
    Ends (action >>= next) s result post := by
  unfold Ends
  rw [bind_failed h]
  exact hr

theorem get {next : PassState σ → PassM σ β} (h : Ends (next s) s result post) :
    Ends (MonadState.get >>= next) s result post := step rfl h

theorem emit {events : Trace} {next : Unit → PassM σ β}
    (h : Ends (next ()) { s with trace := s.trace ++ events } result post) :
    Ends (PassM.emit events >>= next) s result post := step rfl h

theorem modifyState {f : σ → σ} {next : Unit → PassM σ β}
    (h : Ends (next ()) { s with state := f s.state } result post) :
    Ends (PassM.modifyState f >>= next) s result post := step rfl h

theorem modifyTypes {f : Universe → Universe} {next : Unit → PassM σ β}
    (h : Ends (next ()) { s with types := f s.types } result post) :
    Ends (PassM.modifyTypes f >>= next) s result post := step rfl h

theorem ofExcept {x : Except InternalError α} {a : α} (hx : x = .ok a)
    (h : Ends (next a) s result post) : Ends (PassM.ofExcept x >>= next) s result post :=
  step (by rw [hx]; rfl) h

theorem ofExcept_error {x : Except InternalError α} {e : InternalError} (hx : x = .error e)
    (hr : result = none) : Ends (PassM.ofExcept x >>= next) s result post := by
  have hrun : (PassM.ofExcept x : PassM σ α).run s = (.error e, s) := by
    rw [hx]
    rfl
  exact fail hrun hr

theorem bind {first : Option Universe} {mid : PassState σ → Prop}
    {k : Universe → Option Universe} (h : Ends action s first mid)
    (hk : ∀ a s', mid s' → Ends (next a) s' (k s'.types) post) :
    Ends (action >>= next) s (first.bind k) post := by
  unfold Ends at h
  rcases hrun : action.run s with ⟨e | a, s'⟩
  · rw [hrun] at h
    exact fail hrun (by rw [h]; rfl)
  · rw [hrun] at h
    obtain ⟨rfl, hmid⟩ := h
    exact step hrun (hk a s' hmid)

/-- An action that is run to its end, however it goes. -/
theorem attempt {next : Except InternalError α → PassM σ β} {first : Option Universe}
    {mid : PassState σ → Prop} (h : Ends action s first mid)
    (hok : ∀ a s', first = some s'.types → mid s' → Ends (next (.ok a)) s' result post)
    (herror : ∀ e s', first = none → Ends (next (.error e)) s' result post) :
    Ends (PassM.attempt action >>= next) s result post := by
  have hattempt : (PassM.attempt action).run s = (.ok (action.run s).1, (action.run s).2) := rfl
  unfold Ends at h
  rcases hrun : action.run s with ⟨e | a, s'⟩
  · rw [hrun] at h hattempt
    exact step hattempt (herror e s' h)
  · rw [hrun] at h hattempt
    exact step hattempt (hok a s' h.1 h.2)

theorem onPart {part : τ → σ} {put : σ → τ → τ} {s : PassState τ} {post : PassState τ → Prop}
    (h : Ends action ⟨part s.state, s.types, s.trace⟩ result fun s' =>
      post ⟨put s'.state s.state, s'.types, s'.trace⟩) :
    Ends (PassM.onPart part put action) s result post := by
  have hpart : (PassM.onPart part put action).run s =
      ((action.run ⟨part s.state, s.types, s.trace⟩).1,
        ⟨put (action.run ⟨part s.state, s.types, s.trace⟩).2.state s.state,
          (action.run ⟨part s.state, s.types, s.trace⟩).2.types,
          (action.run ⟨part s.state, s.types, s.trace⟩).2.trace⟩) := rfl
  unfold Ends at *
  rw [hpart]
  rcases hrun : action.run ⟨part s.state, s.types, s.trace⟩ with ⟨e | a, s'⟩
  · rw [hrun] at h
    exact h
  · rw [hrun] at h
    exact h

end Ends

end PassM

/-- The body that a pass gives back, unless it has failed. -/
def EditedBody.result? {σ : Type} (e : EditedBody σ) : Option Body :=
  match e.failure with
  | none => some e.body
  | some _ => none

namespace BodyPass

variable {σ : Type} {pass : BodyPass σ} {s : PassState σ} {ref : MemberRef}
  {result : Option Universe} {post : PassState σ → Prop}

/-- The run over one method, up to what comes behind its body. -/
theorem editMethod_ends
    (hmissing : ∀ e, s.types.method ref = .error e → result = none)
    (hbodiless : ∀ m, s.types.method ref = .ok m → m.body = none →
      (pass.finishMethod ref).Ends { s with types := s.types.bodiless ref } result post)
    (hfailed : ∀ m body e, s.types.method ref = .ok m → m.body = some body →
      (pass.editBody (s.types.bodiless ref) ref body s.state).failure = some e → result = none)
    (hedited : ∀ m body edited, s.types.method ref = .ok m → m.body = some body →
      pass.editBody (s.types.bodiless ref) ref body s.state = edited → edited.failure = none →
      (pass.finishMethod ref).Ends
        ⟨edited.state, s.types.modifyMethod ref fun m => { m with body := some edited.body },
          s.trace ++ edited.trace⟩ result post) :
    (pass.editMethod ref).Ends s result post := by
  unfold BodyPass.editMethod
  refine .get ?_
  rcases hm : s.types.method ref with e | m
  · have hdetach : s.types.detachBody ref = .error e := by
      simp only [Universe.detachBody, hm, bind, Except.bind]
    exact .ofExcept_error hdetach (hmissing e hm)
  · refine .ofExcept (Universe.detachBody_ok hm) ?_
    refine .modifyTypes ?_
    dsimp only
    rcases hb : m.body with _ | body
    · exact hbodiless m hm hb
    · have hback : ∀ edited : Body,
          (s.types.bodiless ref).modifyMethod ref (fun m => { m with body := some edited }) =
            s.types.modifyMethod ref fun m => { m with body := some edited } :=
        fun edited => Universe.modifyMethod_modifyMethod s.types ref _ _
      unfold BodyPass.editDetached
      dsimp only
      simp only [bind_assoc]
      refine .get ?_
      generalize hedit : pass.editBody (s.types.bodiless ref) ref body s.state = edited
      refine .modifyState ?_
      refine .emit ?_
      refine .get ?_
      refine .ofExcept (Universe.attachBody_ok (Universe.method_bodiless hm) rfl) ?_
      refine .modifyTypes ?_
      dsimp only
      rw [hback]
      rcases hf : edited.failure with _ | e
      · exact hedited m body edited hm hb hedit hf
      · exact .fail rfl (hfailed m body e hm hb (hedit ▸ hf))

/-- From a state that is ready for a method, the pass revises it and is ready for the next one. -/
def Revises (pass : BodyPass σ) (ready : σ → Prop) (f : Reviser) : Prop :=
  ∀ s ref, ready s.state →
    (pass.editMethod ref).Ends s (s.types.revise f ref) fun s' => ready s'.state

variable {ready : σ → Prop} {f : Reviser}

theorem Revises.editMethods (h : pass.Revises ready f) {s : PassState σ} (hs : ready s.state)
    (refs : List MemberRef) :
    (pass.editMethods refs).Ends s (s.types.reviseAll f refs) fun s' => ready s'.state := by
  induction refs generalizing s with
  | nil => exact .pure rfl hs
  | cons ref refs ih => exact .bind (h s ref hs) fun _ s' hs' => ih hs'

theorem Revises.editUnit (h : pass.Revises ready f) {s : PassState σ} {unit : CompilationUnit}
    (hs : ready (pass.beginUnit unit s.state)) :
    (pass.editUnit unit).Ends s (s.types.reviseUnit f unit.root.allTypes) fun s' =>
      ∃ state, ready state ∧ s'.state = pass.endUnit unit state := by
  unfold BodyPass.editUnit
  refine .modifyState ?_
  have hmethods : PassM.Ends (do
      let methods ← PassM.ofExcept ((← get).types.unitMethods unit)
      PassM.emit [.editingBodies pass.name methods.length]
      pass.editMethods methods) { s with state := pass.beginUnit unit s.state }
      (s.types.reviseUnit f unit.root.allTypes) fun s' => ready s'.state := by
    refine .get ?_
    unfold Universe.reviseUnit Universe.unitMethods
    rcases unit.root.allTypes.mapM (s.types.typeMethods (s.types.typeCount + 1)) with e | methods
    · exact .ofExcept_error rfl rfl
    · refine .ofExcept rfl ?_
      refine .emit ?_
      exact h.editMethods hs methods.flatten
  refine .attempt hmethods (fun _ s' hr hs' => ?_) fun e s' hr => ?_
  · exact .modifyState (.pure hr ⟨s'.state, hs', rfl⟩)
  · refine .modifyState ?_
    exact hr

/-- A pass that does nothing behind the bodies. -/
theorem revises_of_editBody {edited : Universe → MemberRef → Body → Option Body}
    (hfinish : ∀ ref, pass.finishMethod ref = pure ())
    (hbody : ∀ u ref body state, ready state →
      edited u.outline ref body = (pass.editBody u ref body state).result?)
    (hready : ∀ u ref body state, ready state → ready (pass.editBody u ref body state).state) :
    pass.Revises ready (.ofBodies edited) := by
  intro s ref hs
  refine editMethod_ends (fun e hm => ?_) (fun m hm hb => ?_) (fun m body e hm hb hf => ?_)
    fun m body result hm hb hresult hf => ?_
  · exact Universe.revise_missing hm
  · have hr : s.types.revise (.ofBodies edited) ref = some (s.types.bodiless ref) :=
      Universe.revise_ok (r := { body := none }) hm (by rw [hb]; rfl)
    rw [hfinish]
    exact .pure hr hs
  · refine Universe.revise_eq_none hm ?_
    rw [hb, ← Universe.outline_bodiless s.types ref, Reviser.ofBodies,
      hbody (s.types.bodiless ref) ref body s.state hs, EditedBody.result?, hf]
    rfl
  · have hrevised : edited s.types.outline ref body = some result.body := by
      rw [← Universe.outline_bodiless s.types ref,
        hbody (s.types.bodiless ref) ref body s.state hs, hresult, EditedBody.result?, hf]
    have hr : s.types.revise (.ofBodies edited) ref =
        some (s.types.modifyMethod ref fun m => { m with body := some result.body }) :=
      Universe.revise_ok (r := { body := some result.body }) hm
        (by rw [hb, Reviser.ofBodies, hrevised]; rfl)
    rw [hfinish]
    exact .pure hr (hresult ▸ hready (s.types.bodiless ref) ref body s.state hs)

end BodyPass

end MiddleEnd
