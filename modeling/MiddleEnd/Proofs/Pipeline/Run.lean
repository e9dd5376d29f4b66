/-
  Runs of everything behind lowering. In a closed universe that has the types of a unit and the
  guard with its checks, binding, contracts and passes over the unit all succeed and leave a closed
  universe of the same layout (`finish_runs`). Which passes run does not matter.
-/
import MiddleEnd.Compile
import MiddleEnd.Proofs.Binding.Names
import MiddleEnd.Proofs.Conditional.Names
import MiddleEnd.Proofs.Guard.Names
import MiddleEnd.Proofs.Precondition.Collection

namespace MiddleEnd

variable {u : Universe} {unit : CompilationUnit} {errors : Sink}

/-! ## Contracts -/

namespace Contracts

variable {σ : Type} {s : PassState σ} {guard : TypeId}

theorem has_of_findIdx? {type : TypeId} {node : TypeNode} {isPart : Member → Bool}
    {ref : MemberRef} (hn : u.type? type = some node)
    (hr : ((node.members.findIdx? isPart).map fun i => ⟨type, i⟩) = some ref) : u.Has ref := by
  obtain ⟨i, hi, rfl⟩ := Option.map_eq_some_iff.mp hr
  obtain ⟨hlt, -⟩ := List.findIdx?_eq_some_iff_getElem.mp hi
  exact ⟨_, Universe.member_eq_ok.mpr ⟨node, hn, List.getElem?_eq_getElem hlt⟩⟩

theorem installOn_runs {type : TypeId} (hs : s.types.Fits u.layout) (ht : u.HasType type) :
    (installOn guard type).Runs s fun _ s' => s'.types.Fits u.layout := by
  obtain ⟨node, hn⟩ := Universe.hasType_of_layout hs.layout_eq.symm ht
  unfold installOn
  refine .bind (.get ?_)
  refine .bind (.ofExcept (Universe.type_eq_ok.mpr hn) ?_)
  dsimp only
  split
  · exact .pure hs
  · refine .bind (.modifyTypes ?_)
    refine .pure ⟨hs.closed.setContract ?_, Universe.layout_setContract.trans hs.layout_eq⟩
    rintro target (hgetter | hfield)
    · exact has_of_findIdx? hn hgetter
    · exact has_of_findIdx? hn hfield

theorem installOnAll_runs {types : List TypeId} (hs : s.types.Fits u.layout)
    (ht : ∀ id ∈ types, u.HasType id) :
    (installOnAll guard types).Runs s fun _ s' => s'.types.Fits u.layout := by
  induction types generalizing s with
  | nil => exact .pure hs
  | cons type types ih =>
      refine .bind (PassM.Runs.mono (installOn_runs hs (ht type List.mem_cons_self)) ?_)
      intro _ s₁ hs₁
      refine .bind (PassM.Runs.mono (ih hs₁ fun id hid => ht id (List.mem_cons_of_mem type hid)) ?_)
      intro _ s₂ hs₂
      exact .pure hs₂

theorem install_runs (hs : s.types.Fits u.layout) (ht : ∀ id ∈ unit.root.allTypes, u.HasType id) :
    (install unit guard).Runs s fun _ s' => s'.types.Fits u.layout := by
  refine .bind (PassM.Runs.mono (installOnAll_runs hs ht) ?_)
  intro _ s' hs'
  exact .bind (.emit (.pure hs'))

end Contracts

/-! ## Passes -/

namespace Pipeline

variable {w : WellKnown} {s : PassState Pipeline}

/-- Between passes: the universe still fits, and the pipeline knows the same checks. -/
structure Ready (u : Universe) (w : WellKnown) (s : PassState Pipeline) : Prop where
  fits : s.types.Fits u.layout
  wellKnown : s.state.wellKnown = w

theorem mayContinue_runs (hs : Ready u w s) :
    (mayContinue errors).Runs s fun _ => Ready u w := by
  refine .bind (.get ?_)
  split
  · exact .bind (.emit (.pure ⟨hs.fits, hs.wellKnown⟩))
  · exact .pure hs

theorem runPass_runs {enabled : PipelineConfig → Bool} {name : String}
    {action : PassM Pipeline Unit} (ha : ∀ {s}, Ready u w s → action.Runs s fun _ => Ready u w)
    (hs : Ready u w s) : (runPass enabled errors name action).Runs s fun _ => Ready u w := by
  refine .bind (.get ?_)
  split
  · refine .bind (PassM.Runs.mono (mayContinue_runs hs) fun go s₁ hs₁ => ?_)
    cases go with
    | true => exact .bind (PassM.Runs.mono (ha hs₁) fun _ s₂ hs₂ => .pure hs₂)
    | false => exact .pure hs₁
  · exact .pure hs

/-- A sound pass that works on a part of the pipeline. -/
theorem onPart_runs {σ : Type} {pass : BodyPass σ} {part : Pipeline → σ}
    {put : σ → Pipeline → Pipeline} (hp : ∀ state p, (put state p).wellKnown = p.wellKnown)
    (h : pass.Sound u.layout) (ht : ∀ id ∈ unit.root.allTypes, u.HasType id) (hs : Ready u w s) :
    (PassM.onPart part put (pass.editUnit unit)).Runs s fun _ => Ready u w := by
  refine .onPart (PassM.Runs.mono (h.editUnit ?_ ?_) ?_)
  · exact hs.fits
  · exact fun id hid => Universe.hasType_of_layout hs.fits.layout_eq.symm (ht id hid)
  · exact fun _ s' hs' => ⟨hs', (hp s'.state s.state).trans hs.wellKnown⟩

theorem run_runs (hr : u.Has w.checkIsReading) (hw : u.Has w.checkIsWriting)
    (ht : ∀ id ∈ unit.root.allTypes, u.HasType id) (hs : Ready u w s) :
    (run unit errors).Runs s fun _ => Ready u w := by
  have guard : ∀ {s}, Ready u w s → (runGuard unit).Runs s fun _ => Ready u w := by
    intro s hs
    refine .bind (.get ?_)
    -- the checks that the pipeline knows are those found before binding
    rw [hs.wellKnown]
    exact onPart_runs (fun _ _ => rfl) (Guard.pass_sound hr hw) ht hs
  have conditional : ∀ {s}, Ready u w s → (runConditional unit).Runs s fun _ => Ready u w :=
    onPart_runs (fun _ _ => rfl) (Conditional.pass_sound u.layout) ht
  have preconditions : ∀ {s}, Ready u w s → (runPreconditions unit).Runs s fun _ => Ready u w :=
    onPart_runs (fun _ _ => rfl) (Preconditions.pass_sound u.layout) ht
  refine .bind (PassM.Runs.mono (runPass_runs guard hs) fun _ s₁ hs₁ => ?_)
  refine .bind (PassM.Runs.mono (runPass_runs conditional hs₁) fun _ s₂ hs₂ => ?_)
  refine .bind (PassM.Runs.mono (runPass_runs preconditions hs₂) fun _ s₃ hs₃ => ?_)
  refine .bind (.get ?_)
  exact .bind (.emit (.pure ⟨hs₃.fits, hs₃.wellKnown⟩))

end Pipeline

/-! ## All of it -/

/-- Behind lowering nothing fails. -/
theorem Compilation.finish_runs {w : WellKnown} (config : PipelineConfig) (errors : Sink)
    (trace : Trace) (hu : u.Closed) (hw : WellKnown.ofUniverse u = .ok w)
    (ht : ∀ id ∈ unit.root.allTypes, u.HasType id) :
    (finish config unit errors).Runs ⟨(), u, trace⟩ fun _ s' => s'.types.Fits u.layout := by
  obtain ⟨⟨_, hreading⟩, ⟨_, hwriting⟩⟩ := WellKnown.isMethod_of_ofUniverse hw
  obtain ⟨reading, hreading, -⟩ := Universe.method_eq_ok.mp hreading
  obtain ⟨writing, hwriting, -⟩ := Universe.method_eq_ok.mp hwriting
  refine .bind (.get ?_)
  refine .bind (.ofExcept hw ?_)
  refine .bind (.onPart ?_)
  refine PassM.Runs.mono ((Binding.pass_sound u.layout).editUnit ⟨hu, rfl⟩ ht) fun _ s₁ hs₁ => ?_
  refine .bind (PassM.Runs.mono (Contracts.install_runs ?_ ht) fun _ s₂ hs₂ => ?_)
  · exact hs₁
  · refine .onPart (PassM.Runs.mono (Pipeline.run_runs ⟨reading, hreading⟩ ⟨writing, hwriting⟩ ht
      ⟨hs₂, rfl⟩) ?_)
    exact fun _ s₃ hs₃ => hs₃.fits

end MiddleEnd
