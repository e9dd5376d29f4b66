/-
  Checked runs and plain ones. A checked run that does not break off is the plain run: it gives the
  same result and leaves the same state (`Mirrors`). Actions that do not break off do so, and it
  passes from the parts of a run to the whole (`Mirrors.bind`). So it holds of the edit of a method,
  of the runs of a pass over a unit (`editUnitChecked_mirrors`) and of those of the pipeline
  (`runChecked_mirrors`), and what is known of plain runs is known of all checked runs that do not
  break off (`runChecked_of_run`).
-/
import MiddleEnd.Proofs.Pass.Likeness

namespace MiddleEnd

variable {σ τ α β : Type}

theorem PassM.map_run (f : α → β) (action : PassM σ α) (s : PassState σ) :
    (f <$> action).run s = ((action.run s).1.map f, (action.run s).2) := by
  rw [map_eq_pure_bind]
  rcases hrun : action.run s with ⟨e | a, s'⟩
  · exact PassM.bind_failed hrun
  · exact PassM.bind_run hrun

namespace CheckedM

/-- From `s` the checked run breaks off, or it is the plain run. -/
def Mirrors (s : PassState σ) (checked : CheckedM σ α) (plain : PassM σ α) : Prop :=
  (∃ cause, (checked.run.run s).1 = .ok (.error cause)) ∨
    checked.run.run s = (Except.ok <$> plain).run s

namespace Mirrors

variable {s : PassState σ} {checked : CheckedM σ α} {plain : PassM σ α}

theorem ofPlain (s : PassState σ) (plain : PassM σ α) :
    Mirrors s (CheckedM.ofPlain plain) plain := .inr rfl

theorem pure (s : PassState σ) (a : α) : Mirrors s (Pure.pure a) (Pure.pure a) := .inr rfl

theorem bind {f : α → CheckedM σ β} {g : α → PassM σ β} (h : Mirrors s checked plain)
    (hnext : ∀ a s', plain.run s = (.ok a, s') → Mirrors s' (f a) (g a)) :
    Mirrors s (checked >>= f) (plain >>= g) := by
  rcases h with ⟨cause, hbroken⟩ | hplain
  · refine .inl ⟨cause, ?_⟩
    rcases hrun : checked.run.run s with ⟨result, s'⟩
    rw [hrun] at hbroken
    obtain rfl : result = .ok (.error cause) := hbroken
    rw [ExceptT.run_bind, PassM.bind_run hrun]
    rfl
  · rcases hrun : plain.run s with ⟨result, s'⟩
    rw [map_eq_pure_bind] at hplain
    cases result with
    | error e =>
        rw [PassM.bind_failed hrun] at hplain
        refine .inr ?_
        rw [map_eq_pure_bind, PassM.bind_failed (PassM.bind_failed hrun), ExceptT.run_bind,
          PassM.bind_failed hplain]
    | ok a =>
        rw [PassM.bind_run hrun] at hplain
        rcases hnext a s' hrun with ⟨cause, hbroken⟩ | hsame
        · refine .inl ⟨cause, ?_⟩
          rw [ExceptT.run_bind, PassM.bind_run hplain]
          exact hbroken
        · refine .inr ?_
          rw [map_eq_pure_bind, bind_assoc, PassM.bind_run hrun, ← map_eq_pure_bind,
            ExceptT.run_bind, PassM.bind_run hplain]
          exact hsame

/-- Only the run from `s` counts. -/
theorem of_run_eq {plain' : PassM σ α} (h : Mirrors s checked plain)
    (heq : plain'.run s = plain.run s) : Mirrors s checked plain' := by
  unfold Mirrors at h ⊢
  rwa [PassM.map_run, heq, ← PassM.map_run]

/-- The checked run looks at the state. -/
theorem get {f : PassState σ → CheckedM σ α} (h : Mirrors s (f s) plain) :
    Mirrors s (MonadState.get >>= f) plain := h

/-- Both runs look at the state. -/
theorem get_get {f : PassState σ → CheckedM σ α} {g : PassState σ → PassM σ α}
    (h : Mirrors s (f s) (g s)) : Mirrors s (MonadState.get >>= f) (MonadState.get >>= g) := h

/-- On a part of the state. -/
theorem onPart {part : τ → σ} {put : σ → τ → τ} {s : PassState τ}
    (h : Mirrors ⟨part s.state, s.types, s.trace⟩ checked plain) :
    Mirrors s (ExceptT.mk (PassM.onPart part put checked.run)) (PassM.onPart part put plain) := by
  rcases h with ⟨cause, hbroken⟩ | hsame
  · exact .inl ⟨cause, hbroken⟩
  · refine .inr ?_
    have hpart : ∀ {γ : Type} (action : PassM σ γ), (PassM.onPart part put action).run s =
        ((action.run ⟨part s.state, s.types, s.trace⟩).1,
          { (action.run ⟨part s.state, s.types, s.trace⟩).2 with
            state := put (action.run ⟨part s.state, s.types, s.trace⟩).2.state s.state }) :=
      fun _ => rfl
    show (PassM.onPart part put checked.run).run s = _
    rw [PassM.map_run, hpart, hpart, hsame, PassM.map_run]

end Mirrors

end CheckedM

open CheckedM (Mirrors)

/-! ## A pass over a unit -/

namespace BodyPass

variable (pass : BodyPass σ)

theorem editMethodChecked_mirrors (s : PassState σ) (ref : MemberRef) :
    Mirrors s (pass.editMethodChecked ref) (pass.editMethod ref) := by
  unfold Mirrors
  rw [editMethodChecked_run]
  rcases pass.breakOff? s ref with _ | broken
  · exact .inr rfl
  · exact .inl ⟨broken.cause, rfl⟩

theorem editMethodsChecked_mirrors (s : PassState σ) (refs : List MemberRef) :
    Mirrors s (pass.editMethodsChecked refs) (pass.editMethods refs) := by
  induction refs generalizing s with
  | nil => exact .pure s ()
  | cons ref refs ih => exact .bind (pass.editMethodChecked_mirrors s ref) fun _ s' _ => ih s'

/-- A run that breaks off does not get to the end of the unit; one that fails does. -/
theorem editUnitChecked_mirrors (s : PassState σ) (unit : CompilationUnit) :
    Mirrors s (pass.editUnitChecked unit) (pass.editUnit unit) := by
  unfold editUnitChecked editUnit
  refine .bind (.ofPlain s _) fun _ s _ => ?_
  obtain ⟨plain, hplain⟩ : ∃ plain : PassM σ Unit, plain = (do
      let methods ← PassM.ofExcept ((← get).types.unitMethods unit)
      PassM.emit [.editingBodies pass.name methods.length]
      pass.editMethods methods) := ⟨_, rfl⟩
  have hmethods : Mirrors s (pass.editUnitMethodsChecked unit) plain := by
    rw [hplain]
    refine .get_get (.bind (.ofPlain s _) fun methods s _ => ?_)
    exact .bind (.ofPlain s _) fun _ s _ => pass.editMethodsChecked_mirrors s methods
  rw [← hplain]
  unfold Mirrors
  rw [CheckedM.ofPlain_bind_run, PassM.attempt_bind_run, PassM.map_run, PassM.attempt_bind_run]
  rcases hmethods with ⟨cause, hbroken⟩ | hsame
  · rw [hbroken]
    exact .inl ⟨cause, rfl⟩
  · rw [hsame, PassM.map_run]
    refine .inr ?_
    rcases plain.run s with ⟨e | _, s'⟩
    · rfl
    · rfl

end BodyPass

/-! ## The pipeline -/

namespace Pipeline

variable {unit : CompilationUnit} {errors : Sink}

theorem state_of_mayContinue {s s' : PassState Pipeline} {go : Bool}
    (h : (mayContinue errors).run s = (.ok go, s')) : s'.state = s.state := by
  unfold mayContinue at h
  rw [PassM.get_bind_run] at h
  split at h
  · rw [PassM.emit_bind_run] at h
    cases h
    rfl
  · cases h
    rfl

theorem runPassChecked_mirrors (enabled : PipelineConfig → Bool) (pass : BodyPass σ)
    (part : Pipeline → σ) (put : σ → Pipeline → Pipeline) {action : PassM Pipeline Unit}
    {s : PassState Pipeline}
    (haction : ∀ s', s'.state = s.state →
      action.run s' = (PassM.onPart part put (pass.editUnit unit)).run s') :
    Mirrors s (runPassChecked enabled errors unit pass part put)
      (runPass enabled errors pass.name action) := by
  unfold runPassChecked runPass
  refine .get_get ?_
  split
  · refine .bind (.ofPlain s _) fun go s' hgo => ?_
    split
    · refine .bind (.of_run_eq ?_ (haction s' (state_of_mayContinue hgo))) fun _ s _ => .pure s _
      exact .onPart (pass.editUnitChecked_mirrors _ unit)
    · exact .pure s' _
  · exact .pure s _

/-- A checked run of the pipeline breaks off, or it is the plain run. -/
theorem runChecked_mirrors (unit : CompilationUnit) (errors : Sink) (s : PassState Pipeline) :
    Mirrors s (runChecked unit errors) (run unit errors) := by
  unfold runChecked run
  refine .get (.bind (runPassChecked_mirrors _ _ _ _ fun s' hs' => ?_) fun first s _ => ?_)
  · -- the well-known members are read before the pass runs there, and when it runs here
    unfold runGuard
    rw [PassM.get_bind_run, hs']
  refine .bind (runPassChecked_mirrors _ _ _ _ fun _ _ => rfl) fun second s _ => ?_
  refine .bind (runPassChecked_mirrors _ _ _ _ fun _ _ => rfl) fun third s _ => ?_
  refine .get_get (.bind (.ofPlain s _) fun _ s _ => .pure s _)

/-- What every plain run of the pipeline comes to, every checked run comes to that does not break
    off. -/
theorem runChecked_of_run {unit : CompilationUnit} {errors : Sink} {s : PassState Pipeline}
    {post : Except InternalError (List String) → PassState Pipeline → Prop}
    (h : post ((run unit errors).run s).1 ((run unit errors).run s).2) :
    (∃ cause, ((runChecked unit errors).run.run s).1 = .ok (.error cause)) ∨
      ∃ result, ((runChecked unit errors).run.run s).1 = result.map .ok ∧
        post result ((runChecked unit errors).run.run s).2 := by
  rcases runChecked_mirrors unit errors s with hbroken | hsame
  · exact .inl hbroken
  · rw [hsame, PassM.map_run]
    exact .inr ⟨_, rfl, h⟩

end Pipeline

end MiddleEnd
