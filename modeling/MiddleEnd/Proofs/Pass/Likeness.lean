/-
  Runs that end alike. Two states of a pass are peers if they have the same universe and the same
  condition holds of both; the rest of them, counters and traces, may differ. A pass is uniform for
  a condition if from peers it makes the same of every method and ends in peers. Then this holds of
  its run over a unit, whether the run succeeds, fails or breaks off.
-/
import MiddleEnd.Pass.Checked
import MiddleEnd.Proofs.Pass.Frame

namespace MiddleEnd

variable {σ τ α β : Type}

/-- Both states have the same universe, and `rest` holds of both. -/
structure PassState.Peers (rest : σ → Prop) (s t : PassState σ) : Prop where
  types_eq : s.types = t.types
  left : rest s.state
  right : rest t.state

namespace PassM

/-- Two runs have the same result and end in peers. -/
structure Alike (rest : σ → Prop) (x y : Except InternalError α × PassState σ) : Prop where
  result_eq : x.1 = y.1
  peers : x.2.Peers rest y.2

namespace Alike

variable {rest post : σ → Prop} {s t : PassState σ} {a b : PassM σ α} {f g : α → PassM σ β}

theorem bind (h : Alike rest (a.run s) (b.run t))
    (hnext : ∀ x s' t', s'.Peers rest t' → Alike rest ((f x).run s') ((g x).run t')) :
    Alike rest ((a >>= f).run s) ((b >>= g).run t) := by
  obtain ⟨hresult, hpeers⟩ := h
  rcases ha : a.run s with ⟨x, s'⟩
  rcases hb : b.run t with ⟨y, t'⟩
  rw [ha, hb] at hresult hpeers
  obtain rfl : x = y := hresult
  cases x with
  | error e =>
      rw [bind_failed ha, bind_failed hb]
      exact ⟨rfl, hpeers⟩
  | ok x =>
      rw [bind_run ha, bind_run hb]
      exact hnext x s' t' hpeers

/-- Behind an action that is run to its end, another condition may hold. -/
theorem attempt {f g : Except InternalError α → PassM σ β} (h : Alike rest (a.run s) (b.run t))
    (hnext : ∀ x s' t', s'.Peers rest t' → Alike post ((f x).run s') ((g x).run t')) :
    Alike post ((PassM.attempt a >>= f).run s) ((PassM.attempt b >>= g).run t) := by
  rw [attempt_bind_run, attempt_bind_run, h.result_eq]
  exact hnext _ _ _ h.peers

theorem map {h : α → β} (hab : Alike rest (a.run s) (b.run t)) :
    Alike rest ((h <$> a).run s) ((h <$> b).run t) := by
  rw [map_eq_pure_bind, map_eq_pure_bind]
  exact hab.bind fun x s' t' hpeers => ⟨rfl, hpeers⟩

theorem onPart {part : τ → σ} {put : σ → τ → τ} {s t : PassState τ} {rest : τ → Prop}
    {inner : σ → Prop}
    (h : Alike inner (a.run ⟨part s.state, s.types, s.trace⟩)
      (b.run ⟨part t.state, t.types, t.trace⟩))
    (hput : ∀ x, inner x → rest (put x s.state) ∧ rest (put x t.state)) :
    Alike rest ((PassM.onPart part put a).run s) ((PassM.onPart part put b).run t) :=
  ⟨h.result_eq, h.peers.types_eq, (hput _ h.peers.left).1, (hput _ h.peers.right).2⟩

end Alike

end PassM

open PassM (Alike)

/-! ## Runs that may break off -/

namespace CheckedM

theorem get_bind_run {f : PassState σ → CheckedM σ β} :
    (get >>= f).run = (get >>= fun s => (f s).run : PassM σ (Except Overflow β)) :=
  ExceptT.run_bind_lift get f

theorem ofPlain_bind_run {a : PassM σ α} {f : α → CheckedM σ β} :
    (ofPlain a >>= f).run = a >>= fun x => (f x).run := ExceptT.run_bind_lift a f

theorem ofPlain_run {a : PassM σ α} : (ofPlain a).run = Except.ok <$> a := rfl

theorem alike_bind {rest : σ → Prop} {s t : PassState σ} {a b : CheckedM σ α}
    {f g : α → CheckedM σ β} (h : Alike rest (a.run.run s) (b.run.run t))
    (hnext : ∀ x s' t', s'.Peers rest t' → Alike rest ((f x).run.run s') ((g x).run.run t')) :
    Alike rest ((a >>= f).run.run s) ((b >>= g).run.run t) := by
  refine PassM.Alike.bind h fun x s' t' hpeers => ?_
  cases x with
  | error cause => exact ⟨rfl, hpeers⟩
  | ok x => exact hnext x s' t' hpeers

end CheckedM

namespace BodyPass

variable {pass : BodyPass σ} {s t : PassState σ} {ref : MemberRef} {m : Method}

/-- What the edit of a method runs into, if it has a body. -/
def breakOff? (pass : BodyPass σ) (s : PassState σ) (ref : MemberRef) : Option BreakOff := do
  let body ← (← (s.types.method ref).toOption).body
  (pass.editBody (s.types.bodiless ref) ref body s.state).breakOff

/-- A method is edited as in a plain run, unless the edit breaks off; then the body is lost. -/
theorem editMethodChecked_run :
    (pass.editMethodChecked ref).run.run s =
      match pass.breakOff? s ref with
      | none => (Except.ok <$> pass.editMethod ref).run s
      | some broken => (.ok (.error broken.cause),
          ⟨s.state, s.types.bodiless ref, s.trace ++ broken.told⟩) := by
  rw [map_eq_pure_bind]
  unfold editMethodChecked editMethod breakOff?
  simp only [bind_assoc]
  rw [CheckedM.get_bind_run, PassM.get_bind_run, PassM.get_bind_run, CheckedM.ofPlain_bind_run]
  rcases hm : s.types.method ref with e | m
  · have hdetach : s.types.detachBody ref = .error e := by
      simp only [Universe.detachBody, hm, bind, Except.bind]
    rw [hdetach, PassM.ofExcept_error_bind_run, PassM.ofExcept_error_bind_run]
    rfl
  · rw [Universe.detachBody_ok hm, PassM.ofExcept_bind_run, PassM.ofExcept_bind_run]
    dsimp only
    rw [CheckedM.ofPlain_bind_run, PassM.modifyTypes_bind_run, PassM.modifyTypes_bind_run]
    simp only [Except.toOption, Option.bind_eq_bind, Option.bind_some]
    rcases m.body with _ | body
    · simp only [CheckedM.ofPlain_run, map_eq_pure_bind, Option.bind_none]
    · dsimp only
      unfold editDetachedChecked
      rw [bind_assoc, CheckedM.get_bind_run, PassM.get_bind_run]
      rw [Option.bind_some]
      rcases (pass.editBody (s.types.bodiless ref) ref body s.state).breakOff with _ | broken
      · dsimp only
        rw [CheckedM.ofPlain_bind_run]
        simp only [CheckedM.ofPlain_run, map_eq_pure_bind, bind_assoc]
      · rfl

/-! ## Uniform passes -/

/-- What the pass makes of a method is the same from all states of which `rest` holds, and it holds
    again behind the method. -/
structure Uniform (pass : BodyPass σ) (rest : σ → Prop) : Prop where
  body_eq : ∀ u ref body {x y}, rest x → rest y →
    (pass.editBody u ref body x).body = (pass.editBody u ref body y).body
  breakOff_eq : ∀ u ref body {x y}, rest x → rest y →
    (pass.editBody u ref body x).breakOff = (pass.editBody u ref body y).breakOff
  /-- Behind the body of a method. -/
  edited : ∀ u ref body {x y}, rest x → rest y → ∀ u' trace trace',
    Alike rest
      ((PassM.failWith (pass.editBody u ref body x).failure >>= fun _ => pass.finishMethod ref).run
        ⟨(pass.editBody u ref body x).state, u', trace⟩)
      ((PassM.failWith (pass.editBody u ref body y).failure >>= fun _ => pass.finishMethod ref).run
        ⟨(pass.editBody u ref body y).state, u', trace'⟩)
  /-- In the place of a body. -/
  bodiless : ∀ ref {s t}, s.Peers rest t →
    Alike rest ((pass.finishMethod ref).run s) ((pass.finishMethod ref).run t)

/-- A pass that does nothing behind the bodies. -/
theorem uniform_of_editBody {rest : σ → Prop} (hfinish : ∀ ref, pass.finishMethod ref = pure ())
    (hbody : ∀ u ref body {x y}, rest x → rest y →
      (pass.editBody u ref body x).body = (pass.editBody u ref body y).body ∧
      (pass.editBody u ref body x).failure = (pass.editBody u ref body y).failure ∧
      (pass.editBody u ref body x).breakOff = (pass.editBody u ref body y).breakOff)
    (hrest : ∀ u ref body {x}, rest x → rest (pass.editBody u ref body x).state) :
    pass.Uniform rest where
  body_eq u ref body _ _ hx hy := (hbody u ref body hx hy).1
  breakOff_eq u ref body _ _ hx hy := (hbody u ref body hx hy).2.2
  edited u ref body x y hx hy u' trace trace' := by
    have hpeers : PassState.Peers rest ⟨(pass.editBody u ref body x).state, u', trace⟩
        ⟨(pass.editBody u ref body y).state, u', trace'⟩ :=
      ⟨rfl, hrest u ref body hx, hrest u ref body hy⟩
    rw [(hbody u ref body hx hy).2.1, hfinish]
    rcases (pass.editBody u ref body y).failure with _ | e
    · exact ⟨rfl, hpeers⟩
    · exact ⟨rfl, hpeers⟩
  bodiless ref s t hpeers := by
    rw [hfinish]
    exact ⟨rfl, hpeers⟩

namespace Uniform

variable {rest : σ → Prop}

theorem editMethod (h : pass.Uniform rest) (hst : s.Peers rest t) (ref : MemberRef) :
    Alike rest ((pass.editMethod ref).run s) ((pass.editMethod ref).run t) := by
  have htypes : t.types = s.types := hst.types_eq.symm
  rcases hm : s.types.method ref with e | m
  · rw [editMethod_missing hm, editMethod_missing (htypes ▸ hm)]
    exact ⟨rfl, hst⟩
  · have hm' : t.types.method ref = .ok m := htypes ▸ hm
    rcases hb : m.body with _ | body
    · rw [editMethod_bodiless hm hb, editMethod_bodiless hm' hb]
      exact h.bodiless ref hst
    · rw [editMethod_body hm hb rfl, editMethod_body hm' hb rfl, htypes,
        h.body_eq (s.types.bodiless ref) ref body hst.left hst.right]
      exact h.edited (s.types.bodiless ref) ref body hst.left hst.right _ _ _

theorem editMethods (h : pass.Uniform rest) (hst : s.Peers rest t) (refs : List MemberRef) :
    Alike rest ((pass.editMethods refs).run s) ((pass.editMethods refs).run t) := by
  induction refs generalizing s t with
  | nil => exact ⟨rfl, hst⟩
  | cons ref refs ih => exact (h.editMethod hst ref).bind fun _ s' t' hst' => ih hst'

theorem editUnit (h : pass.Uniform rest) (post : σ → Prop) {unit : CompilationUnit}
    (hst : s.types = t.types) (hs : rest (pass.beginUnit unit s.state))
    (ht : rest (pass.beginUnit unit t.state))
    (hend : ∀ x, rest x → post (pass.endUnit unit x)) :
    Alike post ((pass.editUnit unit).run s) ((pass.editUnit unit).run t) := by
  rcases hrefs : s.types.unitMethods unit with e | refs
  · rw [editUnit_error hrefs, editUnit_error (hst ▸ hrefs)]
    exact ⟨rfl, hst, hend _ hs, hend _ ht⟩
  · rw [editUnit_run hrefs, editUnit_run (hst ▸ hrefs)]
    have hbegun : PassState.Peers rest
        ⟨pass.beginUnit unit s.state, s.types,
          s.trace ++ [.editingBodies pass.name refs.length]⟩
        ⟨pass.beginUnit unit t.state, t.types,
          t.trace ++ [.editingBodies pass.name refs.length]⟩ := ⟨hst, hs, ht⟩
    obtain ⟨hresult, hpeers⟩ := h.editMethods hbegun refs
    exact ⟨hresult, hpeers.types_eq, hend _ hpeers.left, hend _ hpeers.right⟩

theorem editMethodChecked (h : pass.Uniform rest) (hst : s.Peers rest t) (ref : MemberRef) :
    Alike rest ((pass.editMethodChecked ref).run.run s)
      ((pass.editMethodChecked ref).run.run t) := by
  have hbroken : pass.breakOff? t ref = pass.breakOff? s ref := by
    unfold breakOff?
    simp only [← hst.types_eq, h.breakOff_eq _ _ _ hst.left hst.right]
  rw [editMethodChecked_run, editMethodChecked_run, hbroken]
  rcases pass.breakOff? s ref with _ | broken
  · exact (h.editMethod hst ref).map
  · exact ⟨rfl, congrArg (Universe.bodiless · ref) hst.types_eq, hst.left, hst.right⟩

theorem editMethodsChecked (h : pass.Uniform rest) (hst : s.Peers rest t)
    (refs : List MemberRef) :
    Alike rest ((pass.editMethodsChecked refs).run.run s)
      ((pass.editMethodsChecked refs).run.run t) := by
  induction refs generalizing s t with
  | nil => exact ⟨rfl, hst⟩
  | cons ref refs ih =>
      exact CheckedM.alike_bind (h.editMethodChecked hst ref) fun _ s' t' hst' => ih hst'

theorem editUnitMethodsChecked (h : pass.Uniform rest) (hst : s.Peers rest t)
    (unit : CompilationUnit) :
    Alike rest ((pass.editUnitMethodsChecked unit).run.run s)
      ((pass.editUnitMethodsChecked unit).run.run t) := by
  unfold BodyPass.editUnitMethodsChecked
  rw [CheckedM.get_bind_run, PassM.get_bind_run, PassM.get_bind_run, hst.types_eq,
    CheckedM.ofPlain_bind_run]
  rcases t.types.unitMethods unit with e | refs
  · rw [PassM.ofExcept_error_bind_run, PassM.ofExcept_error_bind_run]
    exact ⟨rfl, hst⟩
  · rw [PassM.ofExcept_bind_run, PassM.ofExcept_bind_run, CheckedM.ofPlain_bind_run,
      PassM.emit_bind_run, PassM.emit_bind_run]
    refine h.editMethodsChecked ?_ refs
    exact ⟨hst.types_eq, hst.left, hst.right⟩

/-- A run that breaks off does not get to the end of the unit. -/
theorem editUnitChecked (h : pass.Uniform rest) (post : σ → Prop) {unit : CompilationUnit}
    (hst : s.types = t.types) (hs : rest (pass.beginUnit unit s.state))
    (ht : rest (pass.beginUnit unit t.state)) (hend : ∀ x, rest x → post (pass.endUnit unit x))
    (hbroken : ∀ x, rest x → post x) :
    Alike post ((pass.editUnitChecked unit).run.run s)
      ((pass.editUnitChecked unit).run.run t) := by
  unfold BodyPass.editUnitChecked
  rw [CheckedM.ofPlain_bind_run, PassM.modifyState_bind_run, PassM.modifyState_bind_run,
    CheckedM.ofPlain_bind_run]
  have hbegun : PassState.Peers rest { s with state := pass.beginUnit unit s.state }
      { t with state := pass.beginUnit unit t.state } := ⟨hst, hs, ht⟩
  refine .attempt (h.editUnitMethodsChecked hbegun unit) fun result s' t' hst' => ?_
  have hends : post (pass.endUnit unit s'.state) ∧ post (pass.endUnit unit t'.state) :=
    ⟨hend _ hst'.left, hend _ hst'.right⟩
  rcases result with e | cause | _
  · exact ⟨rfl, hst'.types_eq, hends.1, hends.2⟩
  · exact ⟨rfl, hst'.types_eq, hbroken _ hst'.left, hbroken _ hst'.right⟩
  · exact ⟨rfl, hst'.types_eq, hends.1, hends.2⟩

end Uniform

end BodyPass

end MiddleEnd
