/-
  Runs of passes that succeed. `Runs` says of an action, a state and a condition that the action
  succeeds from there and ends with the condition. A pass is sound for a layout if it leaves closed
  universes of this layout closed, body by body; then its run over a unit succeeds and does the same
  (`BodyPass.Sound.editUnit`).
-/
import MiddleEnd.Pass.Basic
import MiddleEnd.Proofs.Universe.Closed

namespace MiddleEnd

namespace PassM

variable {σ τ α β : Type} {s : PassState σ}

theorem bind_run {action : PassM σ α} {next : α → PassM σ β} {a : α} {s' : PassState σ}
    (h : action.run s = (.ok a, s')) : (action >>= next).run s = (next a).run s' := by
  show ExceptT.bind action next s = _
  simp only [ExceptT.bind, ExceptT.mk, Bind.bind, StateT.bind]
  rw [show action s = (.ok a, s') from h]
  rfl

theorem bind_failed {action : PassM σ α} {next : α → PassM σ β} {e : InternalError}
    {s' : PassState σ} (h : action.run s = (.error e, s')) :
    (action >>= next).run s = (.error e, s') := by
  show ExceptT.bind action next s = _
  simp only [ExceptT.bind, ExceptT.mk, Bind.bind, StateT.bind]
  rw [show action s = (.error e, s') from h]
  rfl

/-- The action succeeds from the state `s`, and `post` holds of its result and the state behind. -/
def Runs (action : PassM σ α) (s : PassState σ) (post : α → PassState σ → Prop) : Prop :=
  ∃ a s', action.run s = (.ok a, s') ∧ post a s'

namespace Runs

theorem mono {action : PassM σ α} {post post' : α → PassState σ → Prop} (h : Runs action s post)
    (hp : ∀ a s', post a s' → post' a s') : Runs action s post' := by
  obtain ⟨a, s', hrun, hpost⟩ := h
  exact ⟨a, s', hrun, hp a s' hpost⟩

theorem bind {action : PassM σ α} {next : α → PassM σ β} {post : β → PassState σ → Prop}
    (h : Runs action s fun a s' => Runs (next a) s' post) : Runs (action >>= next) s post := by
  obtain ⟨a, s₁, ha, b, s', hb, hp⟩ := h
  exact ⟨b, s', (bind_run ha).trans hb, hp⟩

theorem pure {a : α} {post : α → PassState σ → Prop} (h : post a s) :
    Runs (Pure.pure a) s post := ⟨a, s, rfl, h⟩

theorem get {post : PassState σ → PassState σ → Prop} (h : post s s) :
    Runs MonadState.get s post := ⟨s, s, rfl, h⟩

theorem emit {events : Trace} {post : Unit → PassState σ → Prop}
    (h : post () { s with trace := s.trace ++ events }) : Runs (PassM.emit events) s post :=
  ⟨(), _, rfl, h⟩

theorem modifyState {f : σ → σ} {post : Unit → PassState σ → Prop}
    (h : post () { s with state := f s.state }) : Runs (PassM.modifyState f) s post :=
  ⟨(), _, rfl, h⟩

theorem modifyTypes {f : Universe → Universe} {post : Unit → PassState σ → Prop}
    (h : post () { s with types := f s.types }) : Runs (PassM.modifyTypes f) s post :=
  ⟨(), _, rfl, h⟩

theorem ofExcept {result : Except InternalError α} {a : α} {post : α → PassState σ → Prop}
    (hr : result = .ok a) (h : post a s) : Runs (PassM.ofExcept result) s post :=
  ⟨a, s, by rw [hr]; rfl, h⟩

theorem failWith {failure : Option InternalError} {post : Unit → PassState σ → Prop}
    (hf : failure = none) (h : post () s) : Runs (PassM.failWith failure) s post :=
  ⟨(), s, by rw [hf]; rfl, h⟩

theorem attempt {action : PassM σ α} {post : Except InternalError α → PassState σ → Prop}
    (h : Runs action s fun a s' => post (.ok a) s') : Runs (PassM.attempt action) s post := by
  obtain ⟨a, s', hrun, hp⟩ := h
  refine ⟨.ok a, s', ?_, hp⟩
  show (ExceptT.lift action.run).run s = _
  simp only [ExceptT.lift, ExceptT.run, ExceptT.mk, Functor.map, StateT.map]
  rw [show action s = (.ok a, s') from hrun]
  rfl

theorem onPart {part : τ → σ} {put : σ → τ → τ} {action : PassM σ α} {s : PassState τ}
    {post : α → PassState τ → Prop}
    (h : Runs action ⟨part s.state, s.types, s.trace⟩ fun a s' =>
      post a ⟨put s'.state s.state, s'.types, s'.trace⟩) :
    Runs (PassM.onPart part put action) s post := by
  obtain ⟨a, s', hrun, hp⟩ := h
  refine ⟨a, _, ?_, hp⟩
  show (PassM.onPart part put action).run s = _
  simp only [PassM.onPart, ExceptT.run, ExceptT.mk]
  rw [show action ⟨part s.state, s.types, s.trace⟩ = (.ok a, s') from hrun]

end Runs

end PassM

/-! ## Bodies out of the universe and back -/

/-- A closed universe of a given layout. -/
structure Universe.Fits (layout : TypeId → Option TypeNode) (u : Universe) : Prop where
  closed : u.Closed
  layout_eq : u.layout = layout

section

variable {layout : TypeId → Option TypeNode} {u : Universe} {ref : MemberRef} {method : Method}

theorem Universe.Fits.modifyMethod (h : u.Fits layout) {f : Method → Method}
    (hf : ∀ m, (f m).skeleton = m.skeleton)
    (hb : ∀ method body, u.method ref = .ok method → (f method).body = some body →
      NamesOnly u.Has (body.block.exprs true)) : (u.modifyMethod ref f).Fits layout :=
  ⟨h.closed.modifyMethod hf hb, (Universe.layout_modifyMethod hf).trans h.layout_eq⟩

/-- Without the body of one of its methods. -/
def Universe.bodiless (u : Universe) (ref : MemberRef) : Universe :=
  u.modifyMethod ref fun m => { m with body := none }

theorem Universe.detachBody_ok (hm : u.method ref = .ok method) :
    u.detachBody ref = .ok (method.body, u.bodiless ref) := by
  simp only [detachBody, hm, bind, Except.bind]
  rfl

theorem Universe.method_bodiless (hm : u.method ref = .ok method) :
    (u.bodiless ref).method ref = .ok { method with body := none } :=
  method_modifyMethod.mpr ⟨method, hm, by rw [if_pos rfl]⟩

theorem Universe.layout_bodiless : (u.bodiless ref).layout = u.layout :=
  layout_modifyMethod fun _ => rfl

theorem Universe.Fits.bodiless (h : u.Fits layout) : (u.bodiless ref).Fits layout :=
  h.modifyMethod (fun _ => rfl) fun _ _ _ hbody => nomatch hbody

theorem Universe.attachBody_ok {body : Body} (hm : u.method ref = .ok method)
    (hb : method.body = none) :
    u.attachBody ref body = .ok (u.modifyMethod ref fun m => { m with body := some body }) := by
  simp only [attachBody, hm, bind, Except.bind, hb]
  rfl

end

/-! ## Sound passes -/

namespace BodyPass

variable {σ : Type} {pass : BodyPass σ} {layout : TypeId → Option TypeNode} {s : PassState σ}

/-- In closed universes of the layout the pass never fails, and its bodies name only members that
    are there. -/
structure Sound (pass : BodyPass σ) (layout : TypeId → Option TypeNode) : Prop where
  editBody : ∀ {u : Universe} {body : Body} (ref : MemberRef) (state : σ), u.Fits layout →
    NamesOnly u.Has (body.block.exprs true) →
    (pass.editBody u ref body state).failure = none ∧
      NamesOnly u.Has ((pass.editBody u ref body state).body.block.exprs true)
  finishMethod : ∀ {s : PassState σ} {ref : MemberRef}, s.types.Fits layout →
    s.types.IsMethod ref → (pass.finishMethod ref).Runs s fun _ s' => s'.types.Fits layout

theorem Sound.editDetached (h : pass.Sound layout) (hs : s.types.Fits layout) {ref : MemberRef}
    {method : Method} {body : Body} (hm : s.types.method ref = .ok method)
    (hb : method.body = none) (hn : NamesOnly s.types.Has (body.block.exprs true)) :
    (pass.editDetached ref body).Runs s fun _ s' => s'.types.Fits layout := by
  obtain ⟨hfailure, hnames⟩ := h.editBody ref s.state hs hn
  unfold BodyPass.editDetached
  refine .bind (.get ?_)
  refine .bind (.modifyState ?_)
  refine .bind (.emit ?_)
  refine .bind (.get ?_)
  -- the pass saw the universe without the body, so there is none in the way
  refine .bind (.ofExcept (Universe.attachBody_ok hm hb) ?_)
  refine .bind (.modifyTypes ?_)
  refine .failWith hfailure ?_
  refine hs.modifyMethod (fun _ => rfl) fun before after _ hafter => ?_
  cases hafter
  exact hnames

theorem Sound.editMethod (h : pass.Sound layout) (hs : s.types.Fits layout) {ref : MemberRef}
    (hr : s.types.IsMethod ref) :
    (pass.editMethod ref).Runs s fun _ s' => s'.types.Fits layout := by
  obtain ⟨method, hm⟩ := hr
  have hl : s.types.layout = layout := hs.layout_eq
  unfold BodyPass.editMethod
  refine .bind (.get ?_)
  refine .bind (.ofExcept (Universe.detachBody_ok hm) ?_)
  refine .bind (.modifyTypes ?_)
  -- whether there was a body or not, the method is still there behind it
  have finish : ∀ s' : PassState σ, s'.types.Fits layout →
      (pass.finishMethod ref).Runs s' fun _ s' => s'.types.Fits layout := fun s' hs' =>
    h.finishMethod hs' (Universe.isMethod_of_layout (hl.trans hs'.layout_eq.symm) ⟨method, hm⟩)
  dsimp only
  rcases hb : method.body with _ | body
  · exact finish _ hs.bodiless
  · refine .bind (PassM.Runs.mono (h.editDetached hs.bodiless (Universe.method_bodiless hm) rfl ?_)
      fun _ s' => finish s')
    exact (hs.closed.bodies hm hb).mono fun _ =>
      Universe.has_of_layout Universe.layout_bodiless.symm

theorem Sound.editMethods (h : pass.Sound layout) (hs : s.types.Fits layout)
    {refs : List MemberRef} (hr : ∀ ref ∈ refs, s.types.IsMethod ref) :
    (pass.editMethods refs).Runs s fun _ s' => s'.types.Fits layout := by
  induction refs generalizing s with
  | nil => exact .pure hs
  | cons ref refs ih =>
      refine .bind (PassM.Runs.mono (h.editMethod hs (hr ref List.mem_cons_self)) ?_)
      intro _ s' hs'
      have hl : s.types.layout = s'.types.layout := hs.layout_eq.trans hs'.layout_eq.symm
      exact ih hs' fun ref' href' =>
        Universe.isMethod_of_layout hl (hr ref' (List.mem_cons_of_mem ref href'))

/-- A sound pass runs over a unit whose types are there. -/
theorem Sound.editUnit (h : pass.Sound layout) (hs : s.types.Fits layout) {unit : CompilationUnit}
    (ht : ∀ id ∈ unit.root.allTypes, s.types.HasType id) :
    (pass.editUnit unit).Runs s fun _ s' => s'.types.Fits layout := by
  obtain ⟨refs, hrefs, hmethods⟩ := hs.closed.unitMethods_ok ht
  unfold BodyPass.editUnit
  refine .bind (.modifyState ?_)
  refine .bind (.attempt ?_)
  refine .bind (.get ?_)
  refine .bind (.ofExcept hrefs ?_)
  refine .bind (.emit ?_)
  refine PassM.Runs.mono (h.editMethods ?_ ?_) ?_
  · exact hs
  · exact hmethods
  · intro _ s' hs'
    exact .bind (.modifyState (.ofExcept rfl hs'))

end BodyPass

end MiddleEnd
