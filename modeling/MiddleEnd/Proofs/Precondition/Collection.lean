/-
  Precondition propagation in closed universes. All members that a body names can be looked up, so
  the collection of facts from it never fails; bodies stay as they are, and what is attached to a
  method is no part of the layout.
-/
import MiddleEnd.Pass.Precondition
import MiddleEnd.Proofs.Code.Editing
import MiddleEnd.Proofs.Code.Visiting
import MiddleEnd.Proofs.Pass.Run

namespace MiddleEnd.Preconditions

/-- No lookup has failed so far. -/
def Quiet (c : Collection) : Prop := c.failure = none

variable {u : Universe} {c : Collection}

theorem record_ok {α : Type} {result : Except InternalError α} {a : α} (h : result = .ok a) :
    record result c = (some a, c) := by
  rw [h]
  rfl

theorem modify_run (f : Collection → Collection) :
    ((modify f : Collect Unit) c).2 = f c := rfl

theorem noteSpill_quiet (form : StmtForm) (hc : Quiet c) : Quiet (noteSpill form c).2 := by
  unfold noteSpill
  split
  · rw [modify_run]
    split <;> exact hc
  · exact hc

theorem noteReceiver_quiet (receiver : Option Expr) {ref : MemberRef} (hr : u.Has ref)
    (hc : Quiet c) : Quiet (noteReceiver u receiver ref c).2 := by
  obtain ⟨member, hm⟩ := hr
  rcases receiver with _ | receiver
  · exact hc
  · dsimp only [noteReceiver]
    rw [StateM.bind_run, record_ok hm]
    dsimp only
    by_cases hstatic : (!member.isStatic) = true
    · have here : (get : Collect Collection) c = (c, c) := rfl
      rw [if_pos hstatic, StateM.bind_run, here]
      dsimp only
      rcases c.spills.resolve receiver with _ | resolved
      · exact hc
      · exact hc
    · rw [if_neg hstatic]
      exact hc

theorem forM_note_quiet (facts : List Precondition) (hc : Quiet c) :
    Quiet (facts.forM note c).2 := by
  induction facts generalizing c with
  | nil => exact hc
  | cons fact facts ih => exact ih (c := (note fact c).2) hc

theorem noteCall_quiet {callee : Expr}
    (hr : ∀ receiver ref, callee.form = .member receiver ref → u.Has ref) (hc : Quiet c) :
    Quiet (noteCall u callee c).2 := by
  obtain ⟨form, type, source⟩ := callee
  cases form with
  | member receiver ref =>
      obtain ⟨member, hm⟩ := hr receiver ref rfl
      dsimp only [noteCall]
      rw [StateM.bind_run, record_ok hm]
      dsimp only [Option.bind_some]
      rcases member.method? with _ | method
      · exact hc
      · exact forM_note_quiet method.preconditions hc
  | _ => exact hc

theorem visitor_respects (u : Universe) : (visitor u).Respects u.Has Quiet where
  block := fun hw => hw
  stmt := fun hw _ hc => hw _ (noteSpill_quiet _ hc)
  expr := fun hw => hw
  member := fun hr hw _ hc => hw _ (noteReceiver_quiet _ hr hc)
  call := fun hr hw _ hc => hw _ (noteCall_quiet hr hc)

theorem finishMethod_runs {layout : TypeId → Option TypeNode} {s : PassState PreconditionSet}
    {ref : MemberRef} (hs : s.types.Fits layout) (hr : s.types.IsMethod ref) :
    (finishMethod ref).Runs s fun _ s' => s'.types.Fits layout := by
  obtain ⟨visible, hvisible⟩ := hs.closed.isExternallyVisible_ok hr
  obtain ⟨method, hm⟩ := hr
  obtain ⟨member, hmember, -⟩ := Universe.method_eq_ok.mp hm
  unfold finishMethod
  refine .bind (.get ?_)
  refine .bind (.modifyState ?_)
  dsimp only
  split
  · exact .pure hs
  · refine .bind (.ofExcept hvisible ?_)
    cases visible with
    | true =>
        refine .bind (.ofExcept hmember ?_)
        exact .emit hs
    | false =>
        refine .bind (.emit ?_)
        refine .bind (.ofExcept hm ?_)
        refine .modifyTypes ?_
        exact hs.modifyMethod (fun _ => rfl) fun _ _ hmethod hbody => hs.closed.bodies hmethod hbody

theorem pass_sound (layout : TypeId → Option TypeNode) : pass.Sound layout where
  editBody := by
    intro u body ref state hu hn
    exact ⟨(visitor_respects u).visitBlock body.block hn {} rfl, hn⟩
  finishMethod := finishMethod_runs

end MiddleEnd.Preconditions
