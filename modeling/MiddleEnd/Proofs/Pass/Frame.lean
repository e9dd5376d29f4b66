/-
  What a run over a unit leaves alone. The driver takes each body out of the universe while the pass
  works on it, so every way out of a method has to put a body back. For a pass that only edits
  bodies this is so, whatever it does and wherever it fails: behind the run the universe is the
  same but for the bodies of the unit's methods, and methods that the run did not get to are as they
  were (`editUnit_sameBut`). The methods of a unit may be listed more than once.
-/
import MiddleEnd.Proofs.Universe.Bodies

namespace MiddleEnd

/-! ## Runs -/

namespace PassM

variable {σ α β : Type} {s : PassState σ}

theorem get_bind_run {next : PassState σ → PassM σ β} :
    (get >>= next).run s = (next s).run s := bind_run rfl

theorem emit_bind_run {events : Trace} {next : Unit → PassM σ β} :
    (emit events >>= next).run s = (next ()).run { s with trace := s.trace ++ events } :=
  bind_run rfl

theorem modifyState_bind_run {f : σ → σ} {next : Unit → PassM σ β} :
    (modifyState f >>= next).run s = (next ()).run { s with state := f s.state } := bind_run rfl

theorem modifyTypes_bind_run {f : Universe → Universe} {next : Unit → PassM σ β} :
    (modifyTypes f >>= next).run s = (next ()).run { s with types := f s.types } := bind_run rfl

theorem ofExcept_bind_run {a : α} {next : α → PassM σ β} :
    (ofExcept (.ok a) >>= next).run s = (next a).run s := bind_run rfl

theorem ofExcept_error_bind_run {e : InternalError} {next : α → PassM σ β} :
    (ofExcept (.error e) >>= next).run s = (.error e, s) := bind_failed rfl

theorem attempt_bind_run {action : PassM σ α} {next : Except InternalError α → PassM σ β} :
    (attempt action >>= next).run s = (next (action.run s).1).run (action.run s).2 := bind_run rfl

theorem failWith_none_bind_run {next : Unit → PassM σ β} :
    (failWith none >>= next).run s = (next ()).run s := bind_run rfl

theorem failWith_some_bind_run {e : InternalError} {next : Unit → PassM σ β} :
    (failWith (some e) >>= next).run s = (.error e, s) := bind_failed rfl

end PassM

namespace BodyPass

variable {σ : Type} {pass : BodyPass σ} {s : PassState σ} {ref : MemberRef} {m : Method}

theorem editMethod_missing {e : InternalError} (hm : s.types.method ref = .error e) :
    (pass.editMethod ref).run s = (.error e, s) := by
  have hdetach : s.types.detachBody ref = .error e := by
    simp only [Universe.detachBody, hm, bind, Except.bind]
  unfold editMethod
  rw [PassM.get_bind_run, hdetach, PassM.ofExcept_error_bind_run]

theorem editMethod_bodiless (hm : s.types.method ref = .ok m) (hb : m.body = none) :
    (pass.editMethod ref).run s = (pass.finishMethod ref).run s := by
  unfold editMethod
  rw [PassM.get_bind_run, Universe.detachBody_ok hm, PassM.ofExcept_bind_run]
  simp only [hb]
  rw [PassM.modifyTypes_bind_run, Universe.bodiless_of_body_eq_none hm hb]

/-- A body goes back as the pass left it, whether the pass has failed or not. -/
theorem editMethod_body (hm : s.types.method ref = .ok m) {body : Body} (hb : m.body = some body)
    {edited : EditedBody σ}
    (hedited : pass.editBody (s.types.bodiless ref) ref body s.state = edited) :
    (pass.editMethod ref).run s =
      (PassM.failWith edited.failure >>= fun _ => pass.finishMethod ref).run
        ⟨edited.state, s.types.setBody ref edited.body, s.trace ++ edited.trace⟩ := by
  have hback : (s.types.bodiless ref).attachBody ref edited.body =
      .ok (s.types.setBody ref edited.body) := by
    rw [Universe.attachBody_ok (Universe.method_bodiless hm) rfl]
    exact congrArg Except.ok (Universe.modifyMethod_modifyMethod s.types ref _ _)
  unfold editMethod
  rw [PassM.get_bind_run, Universe.detachBody_ok hm, PassM.ofExcept_bind_run]
  simp only [hb]
  rw [PassM.modifyTypes_bind_run]
  unfold editDetached
  simp only [bind_assoc]
  rw [PassM.get_bind_run]
  simp only [hedited]
  rw [PassM.modifyState_bind_run, PassM.emit_bind_run, PassM.get_bind_run, hback,
    PassM.ofExcept_bind_run, PassM.modifyTypes_bind_run]

theorem editUnit_run {unit : CompilationUnit} {refs : List MemberRef}
    (h : s.types.unitMethods unit = .ok refs) :
    (pass.editUnit unit).run s =
      let (result, s') := (pass.editMethods refs).run ⟨pass.beginUnit unit s.state, s.types,
        s.trace ++ [.editingBodies pass.name refs.length]⟩
      (result, { s' with state := pass.endUnit unit s'.state }) := by
  unfold editUnit
  rw [PassM.modifyState_bind_run, PassM.attempt_bind_run, PassM.get_bind_run]
  simp only [h]
  rw [PassM.ofExcept_bind_run, PassM.emit_bind_run, PassM.modifyState_bind_run]
  rfl

theorem editUnit_error {unit : CompilationUnit} {e : InternalError}
    (h : s.types.unitMethods unit = .error e) :
    (pass.editUnit unit).run s =
      (.error e, { s with state := pass.endUnit unit (pass.beginUnit unit s.state) }) := by
  unfold editUnit
  rw [PassM.modifyState_bind_run, PassM.attempt_bind_run, PassM.get_bind_run]
  simp only [h]
  rw [PassM.ofExcept_error_bind_run, PassM.modifyState_bind_run]
  rfl

/-- From the state `s` the pass gets through the methods `before`, up to the state `mid`, and there
    makes `edited` of the body of `ref`. -/
structure Reaches (pass : BodyPass σ) (s : PassState σ) (before : List MemberRef) (ref : MemberRef)
    (mid : PassState σ) (edited : EditedBody σ) : Prop where
  run_eq : (pass.editMethods before).run s = (.ok (), mid)
  edited_eq : ∃ m body, mid.types.method ref = .ok m ∧ m.body = some body ∧
    pass.editBody (mid.types.bodiless ref) ref body mid.state = edited

theorem Reaches.start_eq {mid : PassState σ} {edited : EditedBody σ}
    (h : pass.Reaches s [] ref mid edited) : s = mid :=
  congrArg Prod.snd h.run_eq

theorem reaches_cons {s' mid : PassState σ} {before : List MemberRef} {ref' : MemberRef}
    {edited : EditedBody σ} (h : (pass.editMethod ref).run s = (.ok (), s')) :
    pass.Reaches s (ref :: before) ref' mid edited ↔ pass.Reaches s' before ref' mid edited := by
  have hrun : (pass.editMethods (ref :: before)).run s = (pass.editMethods before).run s' :=
    PassM.bind_run h
  constructor
  · rintro ⟨hbefore, hedited⟩
    exact ⟨hrun.symm.trans hbefore, hedited⟩
  · rintro ⟨hbefore, hedited⟩
    exact ⟨hrun.trans hbefore, hedited⟩

/-- One method: only its body is another, and the driver fails only with the pass. -/
theorem editMethod_cases (hfinish : pass.finishMethod ref = pure ()) (hr : s.types.IsMethod ref) :
    (∃ s', (pass.editMethod ref).run s = (.ok (), s') ∧ s.types.SameBut [ref] s'.types ∧
      ∀ mid edited, pass.Reaches s [] ref mid edited → edited.failure = none) ∨
    ∃ edited e, pass.Reaches s [] ref s edited ∧ edited.failure = some e ∧
      s.types.SameBut [ref] (s.types.setBody ref edited.body) ∧
      (pass.editMethod ref).run s = (.error e,
        ⟨edited.state, s.types.setBody ref edited.body, s.trace ++ edited.trace⟩) := by
  obtain ⟨m, hm⟩ := hr
  rcases hb : m.body with _ | body
  · have hrun : (pass.editMethod ref).run s = (.ok (), s) := by
      rw [editMethod_bodiless hm hb, hfinish]
      rfl
    refine .inl ⟨s, hrun, .refl _ _, fun mid edited hreach => ?_⟩
    obtain rfl := hreach.start_eq
    obtain ⟨m', body, hm', hb', -⟩ := hreach.edited_eq
    obtain rfl : m = m' := Except.ok.inj (hm.symm.trans hm')
    rw [hb] at hb'
    cases hb'
  · generalize hedited : pass.editBody (s.types.bodiless ref) ref body s.state = edited
    have hrun := editMethod_body hm hb hedited
    have hsame : s.types.SameBut [ref] (s.types.setBody ref edited.body) :=
      .setBody hm (by rw [hb]; rfl) List.mem_cons_self edited.body
    rcases hf : edited.failure with _ | e
    · rw [hf, PassM.failWith_none_bind_run, hfinish] at hrun
      refine .inl ⟨_, hrun, hsame, fun mid edited' hreach => ?_⟩
      obtain rfl := hreach.start_eq
      obtain ⟨m', body', hm', hb', rfl⟩ := hreach.edited_eq
      obtain rfl : m = m' := Except.ok.inj (hm.symm.trans hm')
      obtain rfl : body = body' := Option.some.inj (hb.symm.trans hb')
      rw [hedited, hf]
    · rw [hf, PassM.failWith_some_bind_run] at hrun
      exact .inr ⟨edited, e, ⟨rfl, m, body, hm, hb, hedited⟩, hf, hsame, hrun⟩

/-- The run gets to its end, or it ends where the pass fails for the first time. -/
theorem editMethods_cases (hfinish : ∀ ref, pass.finishMethod ref = pure ())
    {refs : List MemberRef} (hr : ∀ ref ∈ refs, s.types.IsMethod ref) :
    (∃ s', (pass.editMethods refs).run s = (.ok (), s') ∧ s.types.SameBut refs s'.types ∧
      ∀ before ref behind mid edited, refs = before ++ ref :: behind →
        pass.Reaches s before ref mid edited → edited.failure = none) ∨
    ∃ before ref behind mid edited e, refs = before ++ ref :: behind ∧
      pass.Reaches s before ref mid edited ∧ edited.failure = some e ∧
      s.types.SameBut (before ++ [ref]) (mid.types.setBody ref edited.body) ∧
      (pass.editMethods refs).run s = (.error e,
        ⟨edited.state, mid.types.setBody ref edited.body, mid.trace ++ edited.trace⟩) := by
  induction refs generalizing s with
  | nil =>
      refine .inl ⟨s, rfl, .refl _ _, fun before ref behind mid edited h => ?_⟩
      cases before <;> cases h
  | cons first refs ih =>
      rcases editMethod_cases (hfinish first) (hr first List.mem_cons_self) with
        ⟨s₁, hrun, hsame, hfirst⟩ | ⟨edited, e, hreach, hf, hsame, hrun⟩
      · have hrest : ∀ ref ∈ refs, s₁.types.IsMethod ref := fun ref href =>
          hsame.isMethod (hr ref (List.mem_cons_of_mem first href))
        have hfirst' : s.types.SameBut (first :: refs) s₁.types :=
          hsame.mono (List.cons_subset_cons first (List.nil_subset refs))
        have hcons : (pass.editMethods (first :: refs)).run s = (pass.editMethods refs).run s₁ :=
          PassM.bind_run hrun
        rw [hcons]
        rcases ih hrest with
          ⟨s', hrun', hsame', hall⟩ |
            ⟨before, ref, behind, mid, edited, e, rfl, hreach, hf, hsame', hrun'⟩
        · have hall' : s.types.SameBut (first :: refs) s'.types :=
            hfirst'.trans (hsame'.mono (List.subset_cons_self first refs))
          refine .inl ⟨s', hrun', hall', ?_⟩
          rintro (_ | ⟨first', before⟩) ref behind mid edited h hreach
          · cases h
            exact hfirst mid edited hreach
          · cases h
            exact hall before ref behind mid edited rfl ((reaches_cons hrun).mp hreach)
        · refine .inr ⟨first :: before, ref, behind, mid, edited, e, rfl,
            (reaches_cons hrun).mpr hreach, hf, ?_, hrun'⟩
          have hfirst'' : s.types.SameBut (first :: (before ++ [ref])) s₁.types :=
            hsame.mono (List.cons_subset_cons first (List.nil_subset _))
          exact hfirst''.trans (hsame'.mono (List.subset_cons_self first _))
      · exact .inr ⟨[], first, refs, s, edited, e, rfl, hreach, hf, hsame, PassM.bind_failed hrun⟩

/-- A run over a unit loses nothing, whatever the pass makes of bodies. Behind it the universe is
    the same but for the bodies of the unit's methods, and the same methods have one. It fails only
    for a missing type, and then before the first method, or with the pass, at the first method
    where this fails; this method holds what the pass made of it, and methods that come only behind
    it are untouched. -/
theorem editUnit_sameBut (name : String) (beginUnit endUnit : CompilationUnit → σ → σ)
    (editBody : Universe → MemberRef → Body → σ → EditedBody σ) (unit : CompilationUnit)
    (s : PassState σ) :
    let pass : BodyPass σ := { name, beginUnit, endUnit, editBody }
    let (result, s') := (pass.editUnit unit).run s
    match s.types.unitMethods unit with
    | .error e => result = .error e ∧ (∃ id, e = .danglingType id) ∧ s'.types = s.types
    | .ok refs =>
        let start : PassState σ :=
          ⟨beginUnit unit s.state, s.types, s.trace ++ [.editingBodies name refs.length]⟩
        s.types.SameBut refs s'.types ∧
        ((result = .ok () ∧ ∀ before ref behind mid edited, refs = before ++ ref :: behind →
            pass.Reaches start before ref mid edited → edited.failure = none) ∨
          ∃ before ref behind mid edited e, refs = before ++ ref :: behind ∧
            pass.Reaches start before ref mid edited ∧ edited.failure = some e ∧
            result = .error e ∧
            (∃ m, s'.types.method ref = .ok m ∧ m.body = some edited.body) ∧
            ∀ later, later ∉ before ++ [ref] → s'.types.method later = s.types.method later) := by
  intro pass
  rcases s.types.unitMethods_cases unit with ⟨refs, hrefs, hmethods⟩ | ⟨id, hid⟩
  · have hrun := pass.editUnit_run hrefs
    rcases pass.editMethods_cases (s := ⟨beginUnit unit s.state, s.types,
        s.trace ++ [.editingBodies name refs.length]⟩) (fun _ => rfl) hmethods with
      ⟨s', hmethods, hsame, hall⟩ |
        ⟨before, ref, behind, mid, edited, e, rfl, hreach, hf, hsame, hmethods⟩
    · rw [hmethods] at hrun
      rw [hrun, hrefs]
      exact ⟨hsame, .inl ⟨rfl, hall⟩⟩
    · rw [hmethods] at hrun
      rw [hrun, hrefs]
      have hall : before ++ [ref] ⊆ before ++ ref :: behind :=
        List.append_subset.mpr ⟨List.subset_append_left _ _, fun _ h => by simp_all⟩
      refine ⟨hsame.mono hall, .inr ⟨before, ref, behind, mid, edited, e, rfl, hreach, hf, rfl, ?_,
        fun later hlater => hsame.method_eq hlater⟩⟩
      obtain ⟨m, -, hm, -⟩ := hreach.edited_eq
      exact ⟨_, Universe.method_setBody hm edited.body, rfl⟩
  · rw [pass.editUnit_error hid, hid]
    exact ⟨rfl, ⟨id, rfl⟩, rfl⟩

end BodyPass

end MiddleEnd
