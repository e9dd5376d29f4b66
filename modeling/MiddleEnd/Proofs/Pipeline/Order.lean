/-
  The order in which a pipeline meets the types of a unit. Each pass looks at other methods only
  through the outline of the universe: guards at fields and contracts, elimination at the symbols
  that methods are tied to, propagation at declared preconditions and visibility. None of this is
  changed by any pass, so each of them revises methods one by one (`BodyPass.Revises`), and units
  that list the same types in another order end up with the same universe (`run_types_of_perm`).

  Propagation keeps what it has collected from a body in its state until the method is finished. It
  is only because nothing is left over from an earlier method that a method without a body gets
  nothing attached.
-/
import MiddleEnd.Pass.Pipeline
import MiddleEnd.Proofs.Pass.Revision
import MiddleEnd.Proofs.Sample

namespace MiddleEnd

open Universe (outlineView member_outline)

/-! ## Guards -/

namespace Guard

theorem lookupField_outline (u : Universe) (ref : MemberRef) :
    lookupField u.outline ref = lookupField u ref :=
  outlineView.lookupField_view u ref

theorem editor_outline (u : Universe) (w : WellKnown) : editor u.outline w = editor u w := by
  have hfacts : fieldFacts u.outline = fieldFacts u := by
    funext ref
    unfold fieldFacts
    rw [lookupField_outline]
  unfold editor editMember editAssignment
  rw [hfacts]

theorem pass_revises (w : WellKnown) : (pass w).Revises (fun _ => True)
    (.ofBodies fun outline ref body => (editBody w outline ref body 0).result?) := by
  refine BodyPass.revises_of_editBody (fun _ => rfl) (fun u ref body state _ => ?_)
    fun _ _ _ _ _ => trivial
  show (editBody w u.outline ref body 0).result? = (editBody w u ref body state).result?
  unfold editBody
  rw [editor_outline]
  rfl

end Guard

/-! ## Elimination -/

namespace Conditional

theorem symbolOf_outline (u : Universe) (callee : Expr) :
    symbolOf u.outline callee = symbolOf u callee :=
  outlineView.symbolOf_view u callee

theorem editor_outline (u : Universe) (symbols : Option SymbolSet) :
    editor u.outline symbols = editor u symbols := by
  unfold editor editCall
  simp only [symbolOf_outline]

theorem pass_revises (symbols : Option SymbolSet) :
    pass.Revises (fun state => state.symbols = symbols)
      (.ofBodies fun outline ref body => (editBody outline ref body { symbols }).result?) := by
  refine BodyPass.revises_of_editBody (fun _ => rfl) (fun u ref body state hs => ?_)
    fun u ref body state hs => ?_
  · show (editBody u.outline ref body { symbols }).result? = (editBody u ref body state).result?
    unfold editBody
    rw [editor_outline, hs]
    rfl
  · show (editBody u ref body state).state.symbols = symbols
    unfold editBody
    split
    dsimp only
    split <;> exact hs

end Conditional

/-! ## Propagation -/

namespace Preconditions

theorem visitor_outline (u : Universe) : visitor u.outline = visitor u := by
  have hreceiver : noteReceiver u.outline = noteReceiver u := by
    funext receiver ref
    unfold noteReceiver
    rw [member_outline]
    cases receiver with
    | none => rfl
    | some receiver =>
        rcases u.member ref with e | member
        · rfl
        · simp only [Except.map, record, pure_bind, Member.isStatic_skeleton]
  have hcall : noteCall u.outline = noteCall u := by
    funext callee
    unfold noteCall
    split
    · rw [member_outline]
      rename_i ref _
      rcases u.member ref with e | member
      · rfl
      · simp only [Except.map, record, pure_bind, Option.bind_some, Member.method?_skeleton]
        cases member.method? <;> rfl
    · rfl
  unfold visitor
  rw [hreceiver, hcall]

theorem editBody_outline (u : Universe) (ref : MemberRef) (body : Body) (state : PreconditionSet) :
    editBody u.outline ref body state = editBody u ref body state := by
  unfold editBody collect
  rw [visitor_outline]

/-- What a method with a body gets, besides the body. -/
def revision (outline : Universe) (ref : MemberRef) (body : Body) : Option Revision :=
  let edited := editBody outline ref body {}
  match edited.failure with
  | some _ => none
  | none =>
    if edited.state.isEmpty then some { body := some body }
    else
      match outline.isExternallyVisible ref with
      | .ok true => some { body := some body }
      | .ok false =>
        some { body := some body, implicitPreconditions := some edited.state.items }
      | .error _ => none

def reviser : Reviser := fun outline ref body =>
  match body with
  | none => some { body := none }
  | some body => revision outline ref body

/-- What comes behind a body, by what was collected from it. -/
theorem finishMethod_ends {s : PassState PreconditionSet} {ref : MemberRef} {m : Method}
    {result : Option Universe} (hm : s.types.method ref = .ok m)
    (hempty : s.state.isEmpty = true → result = some s.types)
    (hvisible : s.types.isExternallyVisible ref = .ok true → result = some s.types)
    (hhidden : s.state.isEmpty = false → s.types.isExternallyVisible ref = .ok false →
      result = some (s.types.modifyMethod ref fun m =>
        { m with implicitPreconditions := s.state.items }))
    (herror : ∀ e, s.state.isEmpty = false → s.types.isExternallyVisible ref = .error e →
      result = none) :
    (finishMethod ref).Ends s result fun s' => s'.state = {} := by
  unfold finishMethod
  refine .get ?_
  dsimp only
  refine .modifyState ?_
  rcases hfacts : s.state.isEmpty with _ | _
  · rw [if_neg nofun]
    rcases hv : s.types.isExternallyVisible ref with e | _ | _
    · exact .ofExcept_error rfl (herror e hfacts hv)
    · refine .ofExcept rfl (.emit (.ofExcept hm ?_))
      exact And.intro (hhidden hfacts hv) rfl
    · obtain ⟨member, hmember, -⟩ := Universe.method_eq_ok.mp hm
      refine .ofExcept rfl (.ofExcept hmember ?_)
      exact And.intro (hvisible hv) rfl
  · exact .pure (hempty hfacts) rfl

theorem pass_revises : pass.Revises (fun state => state = {}) reviser := by
  intro s ref hs
  have hbody : ∀ body, editBody s.types.outline ref body {} =
      editBody (s.types.bodiless ref) ref body s.state := by
    intro body
    rw [← editBody_outline (s.types.bodiless ref), Universe.outline_bodiless, hs]
  refine BodyPass.editMethod_ends (fun e hm => ?_) (fun m hm hb => ?_) (fun m body e hm hb hf => ?_)
    fun m body edited hm hb hedited hf => ?_
  · exact Universe.revise_missing hm
  · have hr : s.types.revise reviser ref = some (s.types.bodiless ref) :=
      Universe.revise_ok (r := { body := none }) hm (by rw [hb]; rfl)
    refine finishMethod_ends (Universe.method_bodiless hm) (fun _ => hr) (fun _ => hr) ?_ ?_
    · exact fun hfull => absurd hfull (by rw [hs]; exact nofun)
    · exact fun _ hfull => absurd hfull (by rw [hs]; exact nofun)
  · refine Universe.revise_eq_none hm ?_
    have hf : (editBody (s.types.bodiless ref) ref body s.state).failure = some e := hf
    rw [hb, reviser, revision, hbody, hf]
  · have hsame : editBody s.types.outline ref body {} = edited := (hbody body).trans hedited
    obtain rfl : edited.body = body := by rw [← hsame]; rfl
    have hrevision : reviser s.types.outline ref m.body =
        if edited.state.isEmpty then some { body := some edited.body }
        else
          match s.types.outline.isExternallyVisible ref with
          | .ok true => some { body := some edited.body }
          | .ok false =>
            some { body := some edited.body, implicitPreconditions := some edited.state.items }
          | .error _ => none := by
      rw [hb, reviser, revision, hsame, hf]
    have hmethod : (s.types.modifyMethod ref fun m => { m with body := some edited.body }).method
        ref = .ok { m with body := some edited.body } :=
      Universe.method_modifyMethod.mpr ⟨m, hm, by rw [if_pos rfl]⟩
    have hvisibility : (s.types.modifyMethod ref fun m =>
        { m with body := some edited.body }).isExternallyVisible ref =
          s.types.outline.isExternallyVisible ref := by
      rw [← Universe.isExternallyVisible_outline, Universe.outline_modifyMethod s.types ref]
      exact fun _ => rfl
    have hkept : reviser s.types.outline ref m.body = some { body := some edited.body } →
        s.types.revise reviser ref =
          some (s.types.modifyMethod ref fun m => { m with body := some edited.body }) :=
      Universe.revise_ok hm
    refine finishMethod_ends hmethod (fun hempty => hkept ?_) (fun hv => hkept ?_)
      (fun hfull hv => ?_) fun e hfull hv => ?_
    · rw [hrevision, if_pos hempty]
    · rw [hrevision, ← hvisibility, hv]
      simp
    · rw [Universe.modifyMethod_modifyMethod]
      refine Universe.revise_ok (r := ⟨some edited.body, some edited.state.items⟩) hm ?_
      rw [hrevision, ← hvisibility, hv]
      simp [hfull]
    · refine Universe.revise_eq_none hm ?_
      rw [hrevision, ← hvisibility, hv]
      simp [hfull]

end Preconditions

/-! ## The pipeline -/

namespace Pipeline

variable {config : PipelineConfig} {w : WellKnown} {errors : Sink}

/-- A pass that may be left out. -/
def stage (runs : Bool) (f : Reviser) (types : List TypeId) (u : Universe) : Option Universe :=
  if runs then u.reviseUnit f types else some u

/-- Whether recorded errors let passes run. -/
def goesOn (config : PipelineConfig) (errors : Sink) : Bool :=
  !(config.stopOnError && errors.hasErrors)

/-- The universe behind all passes, by the symbols and the types of a unit. There is none if a pass
    fails. -/
def outcome (config : PipelineConfig) (w : WellKnown) (errors : Sink) (symbols : Option SymbolSet)
    (types : List TypeId) (u : Universe) : Option Universe :=
  (stage (config.instrumentGuards && goesOn config errors)
    (.ofBodies fun outline ref body => (Guard.editBody w outline ref body 0).result?)
    types u).bind fun u =>
  (stage (config.eliminateConditionals && goesOn config errors)
    (.ofBodies fun outline ref body =>
      (Conditional.editBody outline ref body { symbols }).result?) types u).bind fun u =>
  stage (config.propagatePreconditions && goesOn config errors) Preconditions.reviser types u

theorem outcome_perm {types types' : List TypeId} (h : types.Perm types')
    (symbols : Option SymbolSet) (u : Universe) :
    outcome config w errors symbols types u = outcome config w errors symbols types' u := by
  have hstage : ∀ runs f, stage runs f types = stage runs f types' := by
    intro runs f
    funext u
    unfold stage
    rw [Universe.reviseUnit_perm h]
  unfold outcome
  simp only [hstage]

/-- A pipeline between passes, with nothing collected. -/
structure Idle (config : PipelineConfig) (w : WellKnown) (s : PassState Pipeline) : Prop where
  config_eq : s.state.config = config
  wellKnown_eq : s.state.wellKnown = w
  preconditions_eq : s.state.preconditions = {}

variable {s : PassState Pipeline} {unit : CompilationUnit}

theorem runPass_ends {enabled : PipelineConfig → Bool} {name : String}
    {action : PassM Pipeline Unit} {f : Reviser} {types : List TypeId}
    (ha : ∀ s, Idle config w s → action.Ends s (s.types.reviseUnit f types) (Idle config w))
    (hs : Idle config w s) :
    (runPass enabled errors name action).Ends s
      (stage (enabled config && goesOn config errors) f types s.types) (Idle config w) := by
  unfold runPass
  refine .get ?_
  rw [hs.config_eq]
  rcases enabled config with _ | _
  · exact .pure rfl hs
  · rw [if_pos rfl]
    unfold mayContinue
    rw [bind_assoc]
    refine .get ?_
    rw [hs.config_eq]
    rcases hgo : config.stopOnError && errors.hasErrors with _ | _
    · have hrun : PassM.Ends (action >>= fun _ => pure [name]) s
          ((s.types.reviseUnit f types).bind some) (Idle config w) :=
        .bind (ha s hs) fun _ s' hs' => .pure rfl hs'
      simpa [stage, goesOn, hgo] using hrun
    · have hskipped : PassM.Ends (PassM.emit [.passesSkipped errors.length] >>= fun _ =>
          pure ([] : List String)) s (some s.types) (Idle config w) :=
        .emit (.pure rfl ⟨hs.config_eq, hs.wellKnown_eq, hs.preconditions_eq⟩)
      simpa [stage, goesOn, hgo] using hskipped

theorem runGuard_ends (hs : Idle config w s) :
    (runGuard unit).Ends s (s.types.reviseUnit
      (.ofBodies fun outline ref body => (Guard.editBody w outline ref body 0).result?)
      unit.root.allTypes) (Idle config w) := by
  unfold runGuard
  refine .get ?_
  rw [hs.wellKnown_eq]
  refine .onPart (.mono ((Guard.pass_revises w).editUnit trivial) fun s' _ => ?_)
  exact ⟨hs.config_eq, hs.wellKnown_eq, hs.preconditions_eq⟩

theorem runConditional_ends (hs : Idle config w s) :
    (runConditional unit).Ends s (s.types.reviseUnit
      (.ofBodies fun outline ref body =>
        (Conditional.editBody outline ref body { symbols := unit.symbols }).result?)
      unit.root.allTypes) (Idle config w) := by
  refine .onPart (.mono ((Conditional.pass_revises unit.symbols).editUnit rfl) fun s' _ => ?_)
  exact ⟨hs.config_eq, hs.wellKnown_eq, hs.preconditions_eq⟩

theorem runPreconditions_ends (hs : Idle config w s) :
    (runPreconditions unit).Ends s (s.types.reviseUnit Preconditions.reviser unit.root.allTypes)
      (Idle config w) := by
  refine .onPart (.mono (Preconditions.pass_revises.editUnit hs.preconditions_eq) ?_)
  rintro s' ⟨state, hempty, hstate⟩
  exact ⟨hs.config_eq, hs.wellKnown_eq, hstate.trans hempty⟩

/-- A run leaves the universe that its outcome says, or fails if there is none. -/
theorem run_ends (hs : Idle config w s) :
    (run unit errors).Ends s (outcome config w errors unit.symbols unit.root.allTypes s.types)
      (Idle config w) := by
  unfold run outcome
  refine .bind (runPass_ends (fun _ => runGuard_ends) hs) fun _ s₁ hs₁ => ?_
  refine .bind (runPass_ends (fun _ => runConditional_ends) hs₁) fun _ s₂ hs₂ => ?_
  rw [← Option.bind_fun_some (stage (config.propagatePreconditions && _) _ _ _)]
  refine .bind (runPass_ends (fun _ => runPreconditions_ends) hs₂) fun _ s₃ hs₃ => ?_
  refine .get (.emit (.pure rfl ?_))
  exact ⟨hs₃.config_eq, hs₃.wellKnown_eq, hs₃.preconditions_eq⟩

/-- If a run over one unit succeeds, so does a run over a unit with the same symbols that lists the
    same types in another order, and it leaves the same universe. -/
theorem run_types_of_perm (config : PipelineConfig) (w : WellKnown) (instrumented : Nat)
    (conditional : Conditional.State) (u : Universe) (trace : Trace) (errors : Sink)
    {unit unit' : CompilationUnit} {passes : List String}
    (hsymbols : unit.symbols = unit'.symbols)
    (htypes : unit.root.allTypes.Perm unit'.root.allTypes)
    (h : ((run unit errors).run
      ⟨{ config, wellKnown := w, instrumented, conditional }, u, trace⟩).1 = .ok passes) :
    ∃ passes', ((run unit' errors).run
        ⟨{ config, wellKnown := w, instrumented, conditional }, u, trace⟩).1 = .ok passes' ∧
      ((run unit' errors).run
        ⟨{ config, wellKnown := w, instrumented, conditional }, u, trace⟩).2.types =
      ((run unit errors).run
        ⟨{ config, wellKnown := w, instrumented, conditional }, u, trace⟩).2.types := by
  generalize hs : (⟨{ config, wellKnown := w, instrumented, conditional }, u, trace⟩ :
    PassState Pipeline) = s at h ⊢
  have hidle : Idle config w s := by
    rw [← hs]
    exact ⟨rfl, rfl, rfl⟩
  have hfirst : (run unit errors).Ends s
      (outcome config w errors unit.symbols unit.root.allTypes s.types) (Idle config w) :=
    run_ends hidle
  have hsecond : (run unit' errors).Ends s
      (outcome config w errors unit'.symbols unit'.root.allTypes s.types) (Idle config w) :=
    run_ends hidle
  rw [← hsymbols, ← outcome_perm htypes] at hsecond
  unfold PassM.Ends at hfirst hsecond
  rcases hrun : (run unit errors).run s with ⟨e | names, s₁⟩
  · rw [hrun] at h
    cases h
  · rw [hrun] at hfirst
    rcases hrun' : (run unit' errors).run s with ⟨e | names', s₂⟩
    · rw [hrun', hfirst.1] at hsecond
      cases hsecond
    · rw [hrun', hfirst.1] at hsecond
      exact ⟨names', rfl, (Option.some.inj hsecond.1).symm⟩

end Pipeline

/-! A wallet and a purse, each with a private method that copies coins. -/

namespace Wallet

def purseId : TypeId := ⟨⟨0⟩, ⟨2⟩⟩

def copyMethod (owner : TypeId) : Member :=
  memberOf owner "Copy" (.method { body := some copyCoins })

def purseNode : TypeNode where
  kind := .classType
  name := "Purse"
  declaringModule := ⟨0⟩
  members := [copyMethod purseId]

def household : Universe :=
  ⟨⟨#[{ id := ⟨0⟩, name := "household", types := ⟨#[guardNode,
    { walletNode with members := walletNode.members ++ [copyMethod walletId] }, purseNode]⟩ }]⟩⟩

/-- A unit that lists types in a namespace each. -/
def unitOf (types : List TypeId) : CompilationUnit :=
  { root := { namespaces := types.map fun id => { types := [id] } } }

end Wallet

theorem Pipeline.run_types_of_household :
    (Wallet.unitOf [Wallet.walletId, Wallet.purseId]).symbols =
        (Wallet.unitOf [Wallet.purseId, Wallet.walletId]).symbols ∧
      (Wallet.unitOf [Wallet.walletId, Wallet.purseId]).root.allTypes.Perm
        (Wallet.unitOf [Wallet.purseId, Wallet.walletId]).root.allTypes ∧
      ∃ passes, ((run (Wallet.unitOf [Wallet.purseId, Wallet.walletId]) []).run
          ⟨{ config := {}, wellKnown := Wallet.checks }, Wallet.household, []⟩).1 = .ok passes ∧
        ((run (Wallet.unitOf [Wallet.purseId, Wallet.walletId]) []).run
          ⟨{ config := {}, wellKnown := Wallet.checks }, Wallet.household, []⟩).2.types =
        ((run (Wallet.unitOf [Wallet.walletId, Wallet.purseId]) []).run
          ⟨{ config := {}, wellKnown := Wallet.checks }, Wallet.household, []⟩).2.types := by
  have htypes : (Wallet.unitOf [Wallet.walletId, Wallet.purseId]).root.allTypes.Perm
      (Wallet.unitOf [Wallet.purseId, Wallet.walletId]).root.allTypes := .swap _ _ _
  have hruns : ((run (Wallet.unitOf [Wallet.walletId, Wallet.purseId]) []).run
      ⟨{ config := {}, wellKnown := Wallet.checks }, Wallet.household, []⟩).1 =
        .ok ["guard-instrumentation", "conditional-elimination", "precondition-propagation"] :=
    toOption_eq_some.mp (by decide +kernel)
  exact ⟨rfl, htypes,
    run_types_of_perm {} Wallet.checks 0 {} Wallet.household [] [] rfl htypes hruns⟩

end MiddleEnd
