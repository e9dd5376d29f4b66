/-
  Passes over universes without sources. If a pass makes of each body, once its sources are lost,
  what it makes of the body itself up to sources, and comes behind the bodies alike, then so does
  its run over a whole unit (`Commutes.editUnit`).
-/
import MiddleEnd.Pass.Basic
import MiddleEnd.Proofs.Code.Commuting
import MiddleEnd.Proofs.Universe.Sourceless

namespace MiddleEnd

variable {σ τ α β γ δ : Type}

/-- The states that a pass keeps may hold code as well; `g` takes the sources from them. -/
def PassState.sourceless (g : σ → σ) (s : PassState σ) : PassState σ where
  state := g s.state
  types := s.types.sourceless
  trace := s.trace.map TraceEvent.sourceless

/-- Both runs succeed or fail together, with the same failure. -/
def PassM.Commutes (f : α → β) (g : σ → σ) (action : PassM σ α) (image : PassM σ β) : Prop :=
  StateM.Commutes (Except.map f) (PassState.sourceless g) action.run image.run

namespace PassM.Commutes

variable {f : α → β} {h : γ → δ} {g : σ → σ}

theorem pure {a : α} {b : β} (hf : f a = b) : Commutes f g (Pure.pure a) (Pure.pure b) :=
  StateM.Commutes.pure (congrArg Except.ok hf)

theorem bind {action : PassM σ α} {image : PassM σ β} {next : α → PassM σ γ}
    {next' : β → PassM σ δ} (ha : Commutes f g action image)
    (hn : ∀ a, Commutes h g (next a) (next' (f a))) :
    Commutes h g (action >>= next) (image >>= next') := by
  show StateM.Commutes (Except.map h) (PassState.sourceless g) (ExceptT.bind action next)
    (ExceptT.bind image next')
  unfold ExceptT.bind ExceptT.mk
  refine StateM.Commutes.bind ha fun a => ?_
  cases a with
  | error e => exact StateM.Commutes.pure rfl
  | ok a => exact hn a

theorem get {next : PassState σ → PassM σ α} {next' : PassState σ → PassM σ β}
    (hn : ∀ s, Commutes f g (next s) (next' (s.sourceless g))) :
    Commutes f g (MonadState.get >>= next) (MonadState.get >>= next') :=
  fun s => hn s s

theorem emit (events : Trace) :
    Commutes id g (PassM.emit events) (PassM.emit (events.map TraceEvent.sourceless)) := by
  intro s
  have htrace : (s.trace ++ events).map TraceEvent.sourceless =
      s.trace.map TraceEvent.sourceless ++ events.map TraceEvent.sourceless := List.map_append
  exact congrArg (fun trace => (Except.ok (), PassState.mk (g s.state) s.types.sourceless trace))
    htrace.symm

theorem modifyState {change change' : σ → σ} (hc : ∀ s, g (change s) = change' (g s)) :
    Commutes id g (PassM.modifyState change) (PassM.modifyState change') :=
  fun s => congrArg (fun state => (Except.ok (), PassState.mk state s.types.sourceless
    (s.trace.map TraceEvent.sourceless))) (hc s.state).symm

theorem modifyTypes {change change' : Universe → Universe}
    (hc : ∀ u, (change u).sourceless = change' u.sourceless) :
    Commutes id g (PassM.modifyTypes change) (PassM.modifyTypes change') :=
  fun s => congrArg (fun types => (Except.ok (), PassState.mk (g s.state) types
    (s.trace.map TraceEvent.sourceless))) (hc s.types).symm

theorem ofExcept {x : Except InternalError α} {y : Except InternalError β} (hx : y = x.map f) :
    Commutes f g (PassM.ofExcept x) (PassM.ofExcept y) :=
  StateM.Commutes.pure hx.symm

theorem failWith (failure : Option InternalError) :
    Commutes id g (PassM.failWith failure) (PassM.failWith failure) := by
  cases failure <;> exact StateM.Commutes.pure rfl

theorem attempt {action : PassM σ α} {image : PassM σ β} (ha : Commutes f g action image) :
    Commutes (Except.map f) g (PassM.attempt action) (PassM.attempt image) := by
  intro s
  show (Except.ok (image.run (s.sourceless g)).1, (image.run (s.sourceless g)).2) = _
  rw [show image.run (s.sourceless g) = _ from ha s]
  rfl

theorem onPart {part : τ → σ} {put : σ → τ → τ} {g' : τ → τ} {action : PassM σ α}
    {image : PassM σ β} (hpart : ∀ t, part (g' t) = g (part t))
    (hput : ∀ s t, put (g s) (g' t) = g' (put s t)) (ha : Commutes f g action image) :
    Commutes f g' (PassM.onPart part put action) (PassM.onPart part put image) := by
  intro s
  have hrun := ha { s with state := part s.state }
  have hstart : PassState.mk (part (g' s.state)) s.types.sourceless
      (s.trace.map TraceEvent.sourceless) =
      PassState.sourceless g { s with state := part s.state } := by
    rw [hpart]
    rfl
  have hpart : (PassM.onPart part put image).run (PassState.sourceless g' s) =
      (fun r => (r.1, { r.2 with state := put r.2.state (g' s.state) }))
        (image.run (PassState.mk (part (g' s.state)) s.types.sourceless
          (s.trace.map TraceEvent.sourceless))) := rfl
  rw [hpart, hstart, show image.run _ = _ from hrun]
  exact congrArg (fun state => (_, PassState.mk state _ _)) (hput _ _)

end PassM.Commutes

/-! ## Passes over bodies -/

/-- What becomes of a body without sources, against what becomes of the body. -/
structure EditedBody.Agrees (g : σ → σ) (edited image : EditedBody σ) : Prop where
  body : image.body = edited.body.sourceless
  state : image.state = g edited.state
  trace : image.trace = edited.trace.map TraceEvent.sourceless
  failure : image.failure = edited.failure

structure BodyPass.Commutes (g : σ → σ) (pass : BodyPass σ) : Prop where
  beginUnit : ∀ unit state,
    g (pass.beginUnit unit state) = pass.beginUnit unit.sourceless (g state)
  endUnit : ∀ unit state, g (pass.endUnit unit state) = pass.endUnit unit.sourceless (g state)
  editBody : ∀ u ref body state, (pass.editBody u ref body state).Agrees g
    (pass.editBody u.sourceless ref body.sourceless (g state))
  finishMethod : ∀ ref, PassM.Commutes id g (pass.finishMethod ref) (pass.finishMethod ref)

namespace BodyPass.Commutes

variable {g : σ → σ} {pass : BodyPass σ} (h : pass.Commutes g)

include h

theorem editDetached (ref : MemberRef) (body : Body) :
    PassM.Commutes id g (pass.editDetached ref body) (pass.editDetached ref body.sourceless) := by
  unfold BodyPass.editDetached
  refine .get fun s => ?_
  have hedited := h.editBody s.types ref body s.state
  generalize pass.editBody s.types ref body s.state = edited at hedited
  dsimp only
  rw [show pass.editBody (s.sourceless g).types ref body.sourceless (s.sourceless g).state =
    pass.editBody s.types.sourceless ref body.sourceless (g s.state) from rfl]
  generalize pass.editBody s.types.sourceless ref body.sourceless (g s.state) = image at hedited
  obtain ⟨hbody, hstate, htrace, hfailure⟩ := hedited
  rw [hbody, hstate, htrace, hfailure]
  refine .bind (.modifyState fun _ => rfl) fun _ => ?_
  refine .bind (.emit edited.trace) fun _ => ?_
  refine .get fun s' => ?_
  refine .bind (.ofExcept (s'.types.attachBody_sourceless ref edited.body)) fun _ => ?_
  exact .bind (.modifyTypes fun _ => rfl) fun _ => .failWith edited.failure

theorem editMethod (ref : MemberRef) :
    PassM.Commutes id g (pass.editMethod ref) (pass.editMethod ref) := by
  unfold BodyPass.editMethod
  refine .get fun s => ?_
  refine .bind (.ofExcept (s.types.detachBody_sourceless ref)) fun detached => ?_
  obtain ⟨body, types⟩ := detached
  refine .bind (.modifyTypes fun _ => rfl) fun _ => ?_
  cases body with
  | none => exact h.finishMethod ref
  | some body => exact .bind (h.editDetached ref body) fun _ => h.finishMethod ref

theorem editMethods (refs : List MemberRef) :
    PassM.Commutes id g (pass.editMethods refs) (pass.editMethods refs) := by
  induction refs with
  | nil => exact .pure rfl
  | cons ref refs ih => exact .bind (h.editMethod ref) fun _ => ih

theorem editUnit (unit : CompilationUnit) :
    PassM.Commutes id g (pass.editUnit unit) (pass.editUnit unit.sourceless) := by
  have hmethods : PassM.Commutes id g (do
        let methods ← PassM.ofExcept ((← get).types.unitMethods unit)
        PassM.emit [.editingBodies pass.name methods.length]
        pass.editMethods methods) (do
        let methods ← PassM.ofExcept ((← get).types.unitMethods unit.sourceless)
        PassM.emit [.editingBodies pass.name methods.length]
        pass.editMethods methods) := by
    refine .get fun s => ?_
    have hfound : (s.sourceless g).types.unitMethods unit.sourceless =
        (s.types.unitMethods unit).map id := by
      rw [Except.map_id]
      exact s.types.unitMethods_sourceless unit
    refine .bind (.ofExcept hfound) fun methods => ?_
    exact .bind (.emit _) fun _ => h.editMethods methods
  unfold BodyPass.editUnit
  refine .bind (.modifyState (h.beginUnit unit)) fun _ => ?_
  refine .bind (.attempt hmethods) fun result => ?_
  exact .bind (.modifyState (h.endUnit unit)) fun _ => .ofExcept rfl

end BodyPass.Commutes

end MiddleEnd
