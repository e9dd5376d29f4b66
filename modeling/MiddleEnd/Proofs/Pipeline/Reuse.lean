/-
  Pipelines that are used again. The passes of a pipeline keep counters, the symbols of the unit at
  hand and what was collected from the method at hand. Only the last two decide what a pass does:
  elimination sets its symbols anew for each unit, and propagation gives its facts away with each
  method, also if it fails there. So a pipeline that has served any number of jobs, failed ones
  among them, does what a new one does (`serve_eq_map`).
-/
import MiddleEnd.Proofs.Pass.Likeness

namespace MiddleEnd

open PassM (Alike)

/-! ## The passes -/

theorem Guard.pass_uniform (w : WellKnown) : (Guard.pass w).Uniform fun _ => True :=
  BodyPass.uniform_of_editBody (fun _ => rfl) (fun _ _ _ _ _ _ _ => ⟨rfl, rfl, rfl⟩)
    fun _ _ _ _ _ => trivial

namespace Conditional

theorem state_editBody (u : Universe) (ref : MemberRef) (body : Body) (state : State) :
    (editBody u ref body state).state.symbols = state.symbols ∧
      (editBody u ref body state).state.saved = state.saved := by
  unfold editBody
  split
  dsimp only
  split <;> exact ⟨rfl, rfl⟩

/-- Elimination goes by the symbols of the unit at hand; what the units around it are is all the
    same. -/
theorem pass_uniform (symbols : Option SymbolSet) (around : List (Option SymbolSet) → Prop) :
    pass.Uniform fun state => state.symbols = symbols ∧ around state.saved := by
  refine BodyPass.uniform_of_editBody (fun _ => rfl) (fun u ref body x y hx hy => ?_)
    fun u ref body x hx => ?_
  · show (editBody u ref body x).body = (editBody u ref body y).body ∧
      (editBody u ref body x).failure = (editBody u ref body y).failure ∧
      (editBody u ref body x).breakOff = (editBody u ref body y).breakOff
    unfold editBody
    rw [hx.1, hy.1]
    exact ⟨rfl, rfl, rfl⟩
  · obtain ⟨hsymbols, hsaved⟩ := state_editBody u ref body x
    show (editBody u ref body x).state.symbols = symbols ∧
      around (editBody u ref body x).state.saved
    rw [hsymbols, hsaved]
    exact hx

end Conditional

namespace Preconditions

variable {s t : PassState PreconditionSet}

theorem finishMethod_alike (hstate : s.state = t.state) (htypes : s.types = t.types)
    (ref : MemberRef) :
    Alike (· = {}) ((finishMethod ref).run s) ((finishMethod ref).run t) := by
  unfold finishMethod
  rw [PassM.get_bind_run, PassM.get_bind_run, hstate, htypes]
  dsimp only
  rw [PassM.modifyState_bind_run, PassM.modifyState_bind_run]
  rcases t.state.isEmpty with _ | _
  · rw [if_neg nofun]
    rcases t.types.isExternallyVisible ref with e | _ | _
    · exact ⟨rfl, htypes, rfl, rfl⟩
    · rw [PassM.ofExcept_bind_run, PassM.ofExcept_bind_run]
      rw [if_neg nofun, PassM.emit_bind_run, PassM.emit_bind_run]
      rcases t.types.method ref with e | m
      · exact ⟨rfl, htypes, rfl, rfl⟩
      · exact ⟨rfl, congrArg (Universe.modifyMethod · ref _) htypes, rfl, rfl⟩
    · rw [PassM.ofExcept_bind_run, PassM.ofExcept_bind_run]
      rw [if_pos rfl]
      rcases t.types.member ref with e | member
      · exact ⟨rfl, htypes, rfl, rfl⟩
      · exact ⟨rfl, htypes, rfl, rfl⟩
  · exact ⟨rfl, htypes, rfl, rfl⟩

/-- Nothing is kept between methods. -/
theorem pass_uniform : pass.Uniform (· = {}) where
  body_eq u ref body x y hx hy := rfl
  breakOff_eq u ref body x y hx hy := rfl
  edited u ref body x y hx hy u' trace trace' := by
    subst hx hy
    rcases hf : (pass.editBody u ref body {}).failure with _ | e
    · rw [PassM.failWith_none_bind_run, PassM.failWith_none_bind_run]
      exact finishMethod_alike (s := ⟨_, u', trace⟩) (t := ⟨_, u', trace'⟩) rfl rfl ref
    · have hstate : (pass.editBody u ref body {}).state = {} := by
        show (editBody u ref body {}).state = {}
        have hf : (collect u body.block).failure = some e := hf
        simp [editBody, hf]
      rw [PassM.failWith_some_bind_run, PassM.failWith_some_bind_run]
      exact ⟨rfl, rfl, hstate, hstate⟩
  bodiless ref s t hst := finishMethod_alike (hst.left.trans hst.right.symm) hst.types_eq ref

end Preconditions

/-! ## Runs of a pipeline -/

namespace Pipeline

/-- A pipeline with nothing collected, whose elimination is in a state of this kind. -/
structure Rested (config : PipelineConfig) (w : WellKnown) (around : Conditional.State → Prop)
    (p : Pipeline) : Prop where
  config_eq : p.config = config
  wellKnown_eq : p.wellKnown = w
  preconditions_eq : p.preconditions = {}
  conditional : around p.conditional

variable {config : PipelineConfig} {w : WellKnown} {around : Conditional.State → Prop}
  {errors : Sink} {unit : CompilationUnit} {s t : PassState Pipeline}

theorem mayContinue_alike (hst : s.Peers (Rested config w around) t) :
    Alike (Rested config w around) ((mayContinue errors).run s) ((mayContinue errors).run t) := by
  unfold mayContinue
  rw [PassM.get_bind_run, PassM.get_bind_run, hst.left.config_eq, hst.right.config_eq]
  split
  · exact ⟨rfl, hst.types_eq, hst.left, hst.right⟩
  · exact ⟨rfl, hst⟩

theorem runPass_alike {enabled : PipelineConfig → Bool} {name : String}
    {action : PassM Pipeline Unit}
    (ha : ∀ s t, s.Peers (Rested config w around) t →
      Alike (Rested config w around) (action.run s) (action.run t))
    (hst : s.Peers (Rested config w around) t) :
    Alike (Rested config w around) ((runPass enabled errors name action).run s)
      ((runPass enabled errors name action).run t) := by
  unfold runPass
  rw [PassM.get_bind_run, PassM.get_bind_run, hst.left.config_eq, hst.right.config_eq]
  split
  · refine .bind (mayContinue_alike hst) fun go s' t' hst' => ?_
    split
    · exact .bind (ha s' t' hst') fun _ s' t' hst' => ⟨rfl, hst'⟩
    · exact ⟨rfl, hst'⟩
  · exact ⟨rfl, hst⟩

theorem runPassChecked_alike {σ : Type} {enabled : PipelineConfig → Bool} {pass : BodyPass σ}
    {part : Pipeline → σ} {put : σ → Pipeline → Pipeline}
    (ha : ∀ s t, s.Peers (Rested config w around) t →
      Alike (Rested config w around)
        ((PassM.onPart part put (pass.editUnitChecked unit).run).run s)
        ((PassM.onPart part put (pass.editUnitChecked unit).run).run t))
    (hst : s.Peers (Rested config w around) t) :
    Alike (Rested config w around)
      ((runPassChecked enabled errors unit pass part put).run.run s)
      ((runPassChecked enabled errors unit pass part put).run.run t) := by
  unfold runPassChecked
  rw [CheckedM.get_bind_run, PassM.get_bind_run, PassM.get_bind_run, hst.left.config_eq,
    hst.right.config_eq]
  split
  · rw [CheckedM.ofPlain_bind_run]
    refine .bind (mayContinue_alike hst) fun go s' t' hst' => ?_
    split
    · exact CheckedM.alike_bind (ha s' t' hst') fun _ s' t' hst' => ⟨rfl, hst'⟩
    · exact ⟨rfl, hst'⟩
  · exact ⟨rfl, hst⟩

namespace Rested

variable {p : Pipeline}

theorem withInstrumented (h : Rested config w around p) (n : Nat) :
    Rested config w around { p with instrumented := n } :=
  ⟨h.config_eq, h.wellKnown_eq, h.preconditions_eq, h.conditional⟩

theorem withConditional (h : Rested config w around p) {c : Conditional.State} (hc : around c) :
    Rested config w around { p with conditional := c } :=
  ⟨h.config_eq, h.wellKnown_eq, h.preconditions_eq, hc⟩

theorem withPreconditions (h : Rested config w around p) {facts : PreconditionSet}
    (hfacts : facts = {}) : Rested config w around { p with preconditions := facts } :=
  ⟨h.config_eq, h.wellKnown_eq, hfacts, h.conditional⟩

end Rested

/-- Between runs the symbols of no unit are set. -/
def Unset (c : Conditional.State) : Prop := c.symbols = none ∧ c.saved = []

theorem run_alike (hst : s.Peers (Rested config w Unset) t) :
    Alike (Rested config w Unset) ((run unit errors).run s) ((run unit errors).run t) := by
  unfold run
  refine .bind (runPass_alike (fun s t hst => ?_) hst) fun first s t hst => ?_
  · unfold runGuard
    rw [PassM.get_bind_run, PassM.get_bind_run, hst.left.wellKnown_eq, hst.right.wellKnown_eq]
    exact .onPart ((Guard.pass_uniform w).editUnit (fun _ => True) hst.types_eq trivial trivial
      fun _ h => h) fun n _ => ⟨hst.left.withInstrumented n, hst.right.withInstrumented n⟩
  refine .bind (runPass_alike (fun s t hst => ?_) hst) fun second s t hst => ?_
  · have hbegin : ∀ c, Unset c →
        (Conditional.pass.beginUnit unit c).symbols = unit.symbols ∧
          (Conditional.pass.beginUnit unit c).saved = [none] := by
      rintro c ⟨hsymbols, hsaved⟩
      exact ⟨rfl, by rw [← hsymbols, ← hsaved]; rfl⟩
    have hend : ∀ c : Conditional.State, c.symbols = unit.symbols ∧ c.saved = [none] →
        Unset (Conditional.pass.endUnit unit c) := by
      rintro c ⟨-, hsaved⟩
      show Unset (Conditional.endUnit c)
      rw [Conditional.endUnit, hsaved]
      exact ⟨rfl, rfl⟩
    exact .onPart ((Conditional.pass_uniform unit.symbols (· = [none])).editUnit _ hst.types_eq
      (hbegin _ hst.left.conditional) (hbegin _ hst.right.conditional) hend)
      fun c hc => ⟨hst.left.withConditional hc, hst.right.withConditional hc⟩
  refine .bind (runPass_alike (fun s t hst => ?_) hst) fun third s t hst => ?_
  · exact .onPart (Preconditions.pass_uniform.editUnit _ hst.types_eq hst.left.preconditions_eq
      hst.right.preconditions_eq fun _ h => h)
      fun _ hfacts => ⟨hst.left.withPreconditions hfacts, hst.right.withPreconditions hfacts⟩
  rw [PassM.get_bind_run, PassM.get_bind_run]
  exact ⟨rfl, hst.types_eq, hst.left, hst.right⟩

/-- A run that breaks off leaves the symbols of its unit behind, but the next one sets its own. -/
theorem runChecked_alike (hst : s.Peers (Rested config w fun _ => True) t) :
    Alike (Rested config w fun _ => True) ((runChecked unit errors).run.run s)
      ((runChecked unit errors).run.run t) := by
  unfold runChecked
  rw [CheckedM.get_bind_run, PassM.get_bind_run, PassM.get_bind_run, hst.left.wellKnown_eq,
    hst.right.wellKnown_eq]
  refine CheckedM.alike_bind (runPassChecked_alike (fun s t hst => ?_) hst) fun first s t hst => ?_
  · exact .onPart ((Guard.pass_uniform w).editUnitChecked (fun _ => True) hst.types_eq
      trivial trivial (fun _ h => h) fun _ h => h)
      fun n _ => ⟨hst.left.withInstrumented n, hst.right.withInstrumented n⟩
  refine CheckedM.alike_bind (runPassChecked_alike (fun s t hst => ?_) hst) fun second s t hst => ?_
  · exact .onPart ((Conditional.pass_uniform unit.symbols fun _ => True).editUnitChecked
      (fun _ => True) hst.types_eq ⟨rfl, trivial⟩ ⟨rfl, trivial⟩ (fun _ _ => trivial)
      fun _ _ => trivial)
      fun c hc => ⟨hst.left.withConditional hc, hst.right.withConditional hc⟩
  refine CheckedM.alike_bind (runPassChecked_alike (fun s t hst => ?_) hst) fun third s t hst => ?_
  · exact .onPart (Preconditions.pass_uniform.editUnitChecked _ hst.types_eq
      hst.left.preconditions_eq hst.right.preconditions_eq (fun _ h => h) fun _ h => h)
      fun _ hfacts => ⟨hst.left.withPreconditions hfacts, hst.right.withPreconditions hfacts⟩
  rw [CheckedM.get_bind_run, PassM.get_bind_run, PassM.get_bind_run]
  exact ⟨rfl, hst.types_eq, hst.left, hst.right⟩

/-! ## One job after another -/

/-- A unit to run a pipeline over, with its universe and the errors recorded before. -/
structure Job where
  unit : CompilationUnit
  types : Universe
  errors : Sink

variable {α : Type} (work : CompilationUnit → Sink → PassM Pipeline α)

/-- The result of a job and the universe it leaves, and the pipeline behind it. -/
def serveJob (p : Pipeline) (job : Job) : (Except InternalError α × Universe) × Pipeline :=
  let (result, s) := (work job.unit job.errors).run ⟨p, job.types, []⟩
  ((result, s.types), s.state)

/-- Serves all jobs with one pipeline. -/
def serve (p : Pipeline) : List Job → List (Except InternalError α × Universe)
  | [] => []
  | job :: jobs => (serveJob work p job).1 :: serve (serveJob work p job).2 jobs

/-- The pipeline behind all jobs. -/
def served (p : Pipeline) (jobs : List Job) : Pipeline :=
  jobs.foldl (fun p job => (serveJob work p job).2) p

variable {work} {rest : Pipeline → Prop}
  (hwork : ∀ unit errors s t, s.Peers rest t →
    Alike rest ((work unit errors).run s) ((work unit errors).run t))

include hwork

theorem serveJob_alike {p q : Pipeline} (hp : rest p) (hq : rest q) (job : Job) :
    (serveJob work p job).1 = (serveJob work q job).1 ∧ rest (serveJob work p job).2 := by
  obtain ⟨hresult, hpeers⟩ :=
    hwork job.unit job.errors ⟨p, job.types, []⟩ ⟨q, job.types, []⟩ ⟨rfl, hp, hq⟩
  exact ⟨Prod.ext hresult hpeers.types_eq, hpeers.left⟩

theorem serve_alike {p q : Pipeline} (hp : rest p) (hq : rest q) (jobs : List Job) :
    serve work p jobs = jobs.map fun job => (serveJob work q job).1 := by
  induction jobs generalizing p with
  | nil => rfl
  | cons job jobs ih =>
      obtain ⟨hjob, hbehind⟩ := serveJob_alike hwork hp hq job
      rw [serve, List.map_cons, hjob, ih hbehind]

theorem served_rest {p : Pipeline} (hp : rest p) (jobs : List Job) :
    rest (served work p jobs) := by
  induction jobs generalizing p with
  | nil => exact hp
  | cons job jobs ih => exact ih (serveJob_alike hwork hp hp job).2

omit hwork

/-- A pipeline that serves one job after another does for each of them what a new pipeline does,
    whatever became of the jobs before: the result is the same, and so is the universe behind it.
    This is also so if jobs break off. Behind each job no symbols are set, none are saved and
    nothing is collected; behind each method of a unit the symbols are those of the unit, and
    nothing is collected. -/
theorem serve_eq_map (config : PipelineConfig) (w : WellKnown) (jobs : List Job) :
    let fresh : Pipeline := { config, wellKnown := w }
    let checked := fun unit errors => (runChecked unit errors).run
    serve run fresh jobs = jobs.map (fun job => (serveJob run fresh job).1) ∧
    serve checked fresh jobs = jobs.map (fun job => (serveJob checked fresh job).1) ∧
    (served run fresh jobs).conditional.symbols = none ∧
    (served run fresh jobs).conditional.saved = [] ∧
    (served run fresh jobs).preconditions = {} ∧
    (∀ refs s, ((Conditional.pass.editMethods refs).run s).2.state.symbols = s.state.symbols ∧
      ((Conditional.pass.editMethods refs).run s).2.state.saved = s.state.saved) ∧
    ∀ refs s, s.state = {} → ((Preconditions.pass.editMethods refs).run s).2.state = {} := by
  intro fresh checked
  have hfresh : Rested config w Unset fresh := ⟨rfl, rfl, rfl, rfl, rfl⟩
  have hrest : Rested config w Unset (served run fresh jobs) :=
    served_rest (fun _ _ _ _ => run_alike) hfresh jobs
  have hchecked : ∀ unit errors s t, s.Peers (Rested config w fun _ => True) t →
      Alike (Rested config w fun _ => True) ((checked unit errors).run s)
        ((checked unit errors).run t) :=
    fun _ _ _ _ => runChecked_alike
  refine ⟨serve_alike (fun _ _ _ _ => run_alike) hfresh hfresh jobs,
    serve_alike hchecked ⟨rfl, rfl, rfl, trivial⟩ ⟨rfl, rfl, rfl, trivial⟩ jobs,
    hrest.conditional.1, hrest.conditional.2, hrest.preconditions_eq, fun refs s => ?_,
    fun refs s hs => ?_⟩
  · exact ((Conditional.pass_uniform s.state.symbols (· = s.state.saved)).editMethods
      ⟨rfl, ⟨rfl, rfl⟩, rfl, rfl⟩ refs).peers.left
  · exact (Preconditions.pass_uniform.editMethods ⟨rfl, hs, hs⟩ refs).peers.left

end Pipeline

end MiddleEnd
