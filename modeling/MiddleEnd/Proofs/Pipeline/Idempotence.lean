/-
  A pipeline without guards run twice. Elimination leaves bodies in which it finds nothing more, and
  propagation leaves each method with what it collects from the body that it leaves. Either pass
  keeps what the other has reached: propagation does not touch bodies, and elimination comes first.
  So a second run over the same unit succeeds, eliminates no call and changes nothing
  (`run_again`). With guards this is not so: every run would add its own checks.
-/
import MiddleEnd.Proofs.Conditional.Settled
import MiddleEnd.Proofs.Pass.Reached
import MiddleEnd.Proofs.Pipeline.Order

namespace MiddleEnd

open Universe (Holds Fixed)

/-! ## Elimination -/

namespace Conditional

/-- Elimination has nothing to do in the body of the method. -/
def Spent (symbols : Option SymbolSet) (outline : Universe) (ref : MemberRef) (m : Method) : Prop :=
  ∀ body, m.body = some body → ∀ state : State, state.symbols = symbols →
    editBody outline ref body state = { body, state }

theorem spent_of_revised (symbols : Option SymbolSet) :
    Reviser.Establishes (.ofBodies fun outline ref body =>
      (editBody outline ref body { symbols }).result?) (Spent symbols) := by
  intro outline ref m r hr body hbody state hstate
  rcases hb : m.body with _ | before
  · rw [hb] at hr
    obtain rfl := Option.some.inj hr
    cases hbody
  · rw [hb] at hr
    obtain ⟨left, hleft, rfl⟩ := Option.map_eq_some_iff.mp hr
    obtain rfl := Option.some.inj hbody
    obtain ⟨hfailure, rfl⟩ := EditedBody.result?_eq_some.mp hleft
    exact editBody_again outline hfailure ref hstate

theorem editBody_outline (u : Universe) (ref : MemberRef) (body : Body) (state : State) :
    editBody u.outline ref body state = editBody u ref body state := by
  unfold editBody
  rw [editor_outline]

/-- Over spent methods elimination gets to its end, and nothing has happened. -/
theorem editMethods_spent {s : PassState State} {refs : List MemberRef}
    (hr : ∀ ref ∈ refs, s.types.IsMethod ref)
    (hspent : ∀ ref ∈ refs, Holds (Spent s.state.symbols) s.types ref) :
    (pass.editMethods refs).run s = (.ok (), s) := by
  refine BodyPass.editMethods_rests (fun _ => rfl) hr fun ref href m body hm hb => ?_
  show editBody (s.types.bodiless ref) ref body s.state = _
  rw [← editBody_outline, Universe.outline_bodiless]
  exact hspent ref href m hm body hb s.state rfl

theorem editUnit_spent {s : PassState State} {unit : CompilationUnit} {refs : List MemberRef}
    (hrefs : s.types.unitMethods unit = .ok refs) (hr : ∀ ref ∈ refs, s.types.IsMethod ref)
    (hspent : ∀ ref ∈ refs, Holds (Spent unit.symbols) s.types ref) :
    (pass.editUnit unit).Runs s fun _ s' =>
      s'.types = s.types ∧ s'.state.eliminated = s.state.eliminated := by
  have hrun := pass.editUnit_run hrefs
  rw [editMethods_spent (s := ⟨pass.beginUnit unit s.state, s.types, _⟩) hr hspent] at hrun
  exact ⟨(), _, hrun, rfl, rfl⟩

end Conditional

/-! ## Propagation -/

namespace Preconditions

theorem body_of_reviser {outline : Universe} {ref : MemberRef} {body : Option Body} {r : Revision}
    (h : reviser outline ref body = some r) : r.body = body := by
  cases body with
  | none =>
      obtain rfl := Option.some.inj h
      rfl
  | some body =>
      simp only [reviser, revision] at h
      split at h
      · cases h
      · split at h
        · obtain rfl := Option.some.inj h
          rfl
        · split at h <;> cases h <;> rfl

/-- What is attached to a method does not change what is collected from it. -/
theorem fixed_of_revised : Reviser.Establishes reviser (Fixed reviser) := by
  intro outline ref m r hr
  refine ⟨r, ?_, ?_⟩
  · rw [show (r.apply m).body = r.body from rfl, body_of_reviser hr, hr]
  · obtain ⟨body, implicit⟩ := r
    cases implicit <;> rfl

theorem keeps_spent (symbols : Option SymbolSet) :
    Reviser.Keeps reviser (Conditional.Spent symbols) := by
  intro outline ref m r hr hspent body hbody
  rw [show (r.apply m).body = r.body from rfl, body_of_reviser hr] at hbody
  exact hspent body hbody

end Preconditions

/-! ## Two runs -/

namespace Pipeline

variable {config : PipelineConfig} {w : WellKnown} {errors : Sink} {u : Universe}
  {unit : CompilationUnit} {n : Nat} {s : PassState Pipeline}

/-- What a second run starts from and keeps. -/
structure Again (config : PipelineConfig) (u : Universe) (n : Nat) (s : PassState Pipeline) :
    Prop where
  types_eq : s.types = u
  config_eq : s.state.config = config
  preconditions_eq : s.state.preconditions = {}
  eliminated_eq : s.state.conditional.eliminated = n

theorem runPass_again {enabled : PipelineConfig → Bool} {name : String}
    {action : PassM Pipeline Unit}
    (ha : (enabled config && goesOn config errors) = true → ∀ s, Again config u n s →
      action.Runs s fun _ => Again config u n)
    (hs : Again config u n s) :
    (runPass enabled errors name action).Runs s fun _ => Again config u n := by
  unfold runPass mayContinue
  refine .bind (.get ?_)
  rw [hs.config_eq]
  split
  · rename_i henabled
    rw [bind_assoc]
    refine .bind (.get ?_)
    rw [hs.config_eq]
    split
    · refine .bind (.bind (.emit (.pure ?_)))
      exact .pure ⟨hs.types_eq, hs.config_eq, hs.preconditions_eq, hs.eliminated_eq⟩
    · rename_i hgo
      refine .bind (.pure ?_)
      have hruns : (enabled config && goesOn config errors) = true := by
        simp [henabled, goesOn, hgo]
      exact .bind (PassM.Runs.mono (ha hruns s hs) fun _ s' hs' => .pure hs')
  · exact .pure hs

theorem runConditional_again {refs : List MemberRef} (hrefs : u.unitMethods unit = .ok refs)
    (hmethods : ∀ ref ∈ refs, u.IsMethod ref)
    (hspent : ∀ ref ∈ refs, Holds (Conditional.Spent unit.symbols) u ref)
    (hs : Again config u n s) : (runConditional unit).Runs s fun _ => Again config u n := by
  obtain ⟨rfl, hconfig, hpreconditions, heliminated⟩ := hs
  refine .onPart (PassM.Runs.mono
    (Conditional.editUnit_spent (s := ⟨_, s.types, s.trace⟩) hrefs hmethods hspent) ?_)
  rintro _ s' ⟨htypes, hsame⟩
  exact ⟨htypes, hconfig, hpreconditions, hsame.trans heliminated⟩

theorem runPreconditions_again {refs : List MemberRef} (hrefs : u.unitMethods unit = .ok refs)
    (hmethods : ∀ ref ∈ refs, u.IsMethod ref)
    (hfixed : ∀ ref ∈ refs, Holds (Fixed Preconditions.reviser) u ref)
    (hs : Again config u n s) : (runPreconditions unit).Runs s fun _ => Again config u n := by
  have hrevised : s.types.reviseUnit Preconditions.reviser unit.root.allTypes = some u := by
    rw [hs.types_eq]
    exact Universe.reviseUnit_eq_some.mpr ⟨refs, hrefs, Universe.reviseAll_fixed hmethods hfixed⟩
  have hends : (Preconditions.pass.editUnit unit).Ends ⟨s.state.preconditions, s.types, s.trace⟩
      (s.types.reviseUnit Preconditions.reviser unit.root.allTypes) _ :=
    Preconditions.pass_revises.editUnit hs.preconditions_eq
  rw [hrevised] at hends
  refine .onPart (PassM.Runs.mono hends.runs fun _ s' hs' => ?_)
  obtain ⟨htypes, state, hempty, hstate⟩ := hs'
  exact ⟨htypes, hs.config_eq, hstate.trans hempty, hs.eliminated_eq⟩

theorem unitMethods_stage {runs : Bool} {f : Reviser} {u' : Universe}
    (h : stage runs f unit.root.allTypes u = some u') :
    u'.unitMethods unit = u.unitMethods unit := by
  unfold stage at h
  split at h
  · obtain ⟨refs, -, h⟩ := Universe.reviseUnit_eq_some.mp h
    rw [← Universe.unitMethods_outline, Universe.outline_reviseAll h, Universe.unitMethods_outline]
  · rw [Option.some.inj h]

theorem holds_of_stage {f : Reviser} {P : Universe → MemberRef → Method → Prop} {u' : Universe}
    (hf : f.Establishes P) (h : stage true f unit.root.allTypes u = some u') :
    ∃ refs, u'.unitMethods unit = .ok refs ∧ ∀ ref ∈ refs, Holds P u' ref := by
  obtain ⟨refs, hrefs, hall⟩ := Universe.reviseUnit_eq_some.mp h
  exact ⟨refs, (unitMethods_stage h).trans hrefs, Universe.holds_of_reviseAll hf hall⟩

theorem holds_stage {runs : Bool} {f : Reviser} {P : Universe → MemberRef → Method → Prop}
    {u' : Universe} {ref : MemberRef} (hf : f.Keeps P)
    (h : stage runs f unit.root.allTypes u = some u') (hP : Holds P u ref) : Holds P u' ref := by
  unfold stage at h
  split at h
  · obtain ⟨refs, -, h⟩ := Universe.reviseUnit_eq_some.mp h
    exact hP.reviseAll hf h
  · rwa [← Option.some.inj h]

/-- What a first run without guards leaves: each pass that ran has nothing more to do. -/
theorem spent_and_fixed (hguards : config.instrumentGuards = false) {u' : Universe}
    (h : outcome config w errors unit.symbols unit.root.allTypes u = some u') :
    ((config.eliminateConditionals && goesOn config errors) = true →
      ∃ refs, u'.unitMethods unit = .ok refs ∧
        ∀ ref ∈ refs, Holds (Conditional.Spent unit.symbols) u' ref) ∧
    ((config.propagatePreconditions && goesOn config errors) = true →
      ∃ refs, u'.unitMethods unit = .ok refs ∧
        ∀ ref ∈ refs, Holds (Fixed Preconditions.reviser) u' ref) := by
  unfold outcome at h
  rw [hguards, Bool.false_and] at h
  obtain ⟨u₀, h₀, h⟩ := Option.bind_eq_some_iff.mp h
  obtain rfl : u = u₀ := Option.some.inj h₀
  obtain ⟨u₁, h₁, h₂⟩ := Option.bind_eq_some_iff.mp h
  refine ⟨fun hruns => ?_, fun hruns => ?_⟩
  · rw [hruns] at h₁
    obtain ⟨refs, hrefs, hspent⟩ := holds_of_stage (Conditional.spent_of_revised unit.symbols) h₁
    refine ⟨refs, (unitMethods_stage h₂).trans hrefs, fun ref href => ?_⟩
    exact holds_stage (Preconditions.keeps_spent unit.symbols) h₂ (hspent ref href)
  · rw [hruns] at h₂
    exact holds_of_stage Preconditions.fixed_of_revised h₂

/-- Without guards a run that succeeds has done all there is to do. Behind it the pipeline is idle,
    and any idle pipeline of the same configuration runs over the unit again, with the same errors
    recorded: it succeeds, eliminates no call and leaves the universe as it is. -/
theorem run_again {passes : List String} {s' : PassState Pipeline}
    (hguards : config.instrumentGuards = false) (hs : Idle config w s)
    (h : (run unit errors).run s = (.ok passes, s')) :
    Idle config w s' ∧
    ∀ t, Idle config w t → t.types = s'.types →
      ∃ passes' t', (run unit errors).run t = (.ok passes', t') ∧ t'.types = s'.types ∧
        t'.state.conditional.eliminated = t.state.conditional.eliminated := by
  have hends : (run unit errors).Ends s
      (outcome config w errors unit.symbols unit.root.allTypes s.types) (Idle config w) :=
    run_ends hs
  unfold PassM.Ends at hends
  rw [h] at hends
  obtain ⟨houtcome, hidle⟩ := hends
  refine ⟨hidle, fun t ht htypes => ?_⟩
  have hagain : Again config s'.types t.state.conditional.eliminated t :=
    ⟨htypes, ht.config_eq, ht.preconditions_eq, rfl⟩
  obtain ⟨hspent, hfixed⟩ := spent_and_fixed hguards houtcome
  have hmethods : ∀ refs, s'.types.unitMethods unit = .ok refs →
      ∀ ref ∈ refs, s'.types.IsMethod ref := by
    intro refs hrefs
    rcases s'.types.unitMethods_cases unit with ⟨refs', hrefs', hall⟩ | ⟨missing, hmissing⟩
    · obtain rfl : refs = refs' := Except.ok.inj (hrefs.symm.trans hrefs')
      exact hall
    · rw [hrefs] at hmissing
      cases hmissing
  have hruns : (run unit errors).Runs t fun _ =>
      Again config s'.types t.state.conditional.eliminated := by
    unfold run
    refine .bind (PassM.Runs.mono (runPass_again (fun hruns => ?_) hagain) fun _ t₁ ht₁ => ?_)
    · rw [hguards] at hruns
      cases hruns
    refine .bind (PassM.Runs.mono (runPass_again (fun hruns t ht => ?_) ht₁) fun _ t₂ ht₂ => ?_)
    · obtain ⟨refs, hrefs, hall⟩ := hspent hruns
      exact runConditional_again hrefs (hmethods refs hrefs) hall ht
    refine .bind (PassM.Runs.mono (runPass_again (fun hruns t ht => ?_) ht₂) fun _ t₃ ht₃ => ?_)
    · obtain ⟨refs, hrefs, hall⟩ := hfixed hruns
      exact runPreconditions_again hrefs (hmethods refs hrefs) hall ht
    refine .bind (.get (.bind (.emit (.pure ?_))))
    exact ⟨ht₃.types_eq, ht₃.config_eq, ht₃.preconditions_eq, ht₃.eliminated_eq⟩
  obtain ⟨passes', t', hrun, ht'⟩ := hruns
  exact ⟨passes', t', hrun, ht'.types_eq, ht'.eliminated_eq⟩

/-- In a wallet and a purse two calls of `Spare` go, and then none. -/
theorem run_again_household :
    let unit := Wallet.unitOf [Wallet.walletId, Wallet.purseId]
    let config : PipelineConfig := { instrumentGuards := false }
    let s : PassState Pipeline := ⟨{ config, wellKnown := Wallet.checks }, Wallet.household, []⟩
    let s' := ((run unit []).run s).2
    (run unit []).run s = (.ok ["conditional-elimination", "precondition-propagation"], s') ∧
      s'.state.conditional.eliminated = 2 ∧
      ∃ passes' t', (run unit []).run s' = (.ok passes', t') ∧ t'.types = s'.types ∧
        t'.state.conditional.eliminated = s'.state.conditional.eliminated := by
  intro unit config s s'
  have hresult : ((run unit []).run s).1 =
      .ok ["conditional-elimination", "precondition-propagation"] :=
    toOption_eq_some.mp (by decide +kernel)
  have hrun : (run unit []).run s =
      (.ok ["conditional-elimination", "precondition-propagation"], s') :=
    (Prod.eta _).symm.trans (congrArg (·, s') hresult)
  have hfresh : Idle config Wallet.checks s := ⟨rfl, rfl, rfl⟩
  obtain ⟨hidle, hagain⟩ := run_again rfl hfresh hrun
  exact ⟨hrun, by decide +kernel, hagain s' hidle rfl⟩

end Pipeline

end MiddleEnd
