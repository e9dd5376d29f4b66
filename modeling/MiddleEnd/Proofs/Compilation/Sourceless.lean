/-
  Sources never affect what a program means. Two code trees that differ in nothing but the sources
  of their nodes are compiled to the same universe and the same unit, up to the sources of nodes
  that are no snippets, by the same passes, with the same diagnostics up to where they point
  (`compileWith_of_sourceless_eq`).

  The argument runs one tree only. To erase the sources of a tree and then compile it is to compile
  the tree and then erase the sources of the result (`compileWith_sourceless`): lowering, binding,
  contracts and passes each commute with the erasure. Two trees that are equal once erased then
  have one erased result.
-/
import MiddleEnd.Proofs.Compilation.Closed
import MiddleEnd.Proofs.Lowering.Sourceless
import MiddleEnd.Proofs.Pipeline.Sourceless
import MiddleEnd.Sample

namespace MiddleEnd

namespace Compilation

/-- Without the sources of all that is no snippet. The passes stay. -/
def sourceless (c : Compilation) : Compilation :=
  { c with
    types := c.types.sourceless
    unit := c.unit.sourceless
    errors := c.errors.map Diagnostic.sourceless
    trace := c.trace.map TraceEvent.sourceless }

/-- The core library has no sources to lose. -/
theorem besideCore_sourceless (m : Module) :
    (besideCore m).sourceless = besideCore m.sourceless := by
  have htypes : coreModule.types.map TypeNode.sourceless = coreModule.types := by
    refine Arena.ext_getElem? fun k => ?_
    rw [Arena.map, Array.getElem?_map]
    rcases k with _ | k
    · rfl
    · rfl
  have hcore : coreModule.sourceless = coreModule :=
    congrArg (fun types => { coreModule with types }) htypes
  refine congrArg Universe.mk (Arena.ext_getElem? fun k => ?_)
  rw [Arena.map, Array.getElem?_map]
  rcases k with _ | _ | k
  · exact congrArg some hcore
  · rfl
  · rfl

/-- An empty module to lower into. -/
def start : LoweringState AssemblyTable where
  module := { id := ⟨1⟩, name := "App" }
  errors := []
  trace := []
  host := AssemblyTable.standard

theorem lower_sourceless (tree : CodeTree.CompileUnit) :
    lower tree.sourceless = (lower tree).sourceless := by
  have hstart : start.sourceless = start := by
    simp [start, LoweringState.sourceless, Module.sourceless, Arena.map]
  have hrun := Lowering.unit_commutes AssemblyTable.host tree start
  rw [hstart] at hrun
  have hlower : ∀ t, lower t =
      { types := besideCore (Lowering.unit AssemblyTable.host t start).2.module
        module := ⟨1⟩
        unit := (Lowering.unit AssemblyTable.host t start).1
        errors := (Lowering.unit AssemblyTable.host t start).2.errors
        trace := (Lowering.unit AssemblyTable.host t start).2.trace } := fun _ => rfl
  rw [hlower, hlower, hrun]
  unfold sourceless
  rw [besideCore_sourceless]
  rfl

end Compilation

/-- Erasing the sources of a tree before it is compiled erases them from the result. -/
theorem compileWith_sourceless (config : PipelineConfig) (tree : CodeTree.CompileUnit) :
    compileWith config tree.sourceless =
      (compileWith config tree).map Compilation.sourceless := by
  have hrun : (Compilation.finish config (Compilation.lower tree).unit.sourceless
      ((Compilation.lower tree).errors.map Diagnostic.sourceless)).run
        ⟨(), (Compilation.lower tree).types.sourceless,
          (Compilation.lower tree).trace.map TraceEvent.sourceless⟩ = _ :=
    Compilation.finish_commutes config (Compilation.lower tree).unit (Compilation.lower tree).errors
      ⟨(), (Compilation.lower tree).types, (Compilation.lower tree).trace⟩
  unfold compileWith Compilation.run
  rw [Compilation.lower_sourceless]
  dsimp only [Compilation.sourceless]
  rw [hrun]
  rcases (Compilation.finish config (Compilation.lower tree).unit
    (Compilation.lower tree).errors).run
    ⟨(), (Compilation.lower tree).types, (Compilation.lower tree).trace⟩ with ⟨e | passes, s⟩
  · rfl
  · rfl

/-- Whichever passes are to run, code trees that are equal once the sources of all their nodes are
    erased are compiled alike: the same passes run, the same diagnostics are reported up to their
    sources, and universe, unit and trace are equal up to the sources of nodes that are no
    snippets. -/
theorem compileWith_of_sourceless_eq (config : PipelineConfig) {t₁ t₂ : CodeTree.CompileUnit}
    (h : t₁.sourceless = t₂.sourceless) :
    ∃ c₁ c₂, compileWith config t₁ = .ok c₁ ∧ compileWith config t₂ = .ok c₂ ∧
      c₁.passes = c₂.passes ∧
      c₁.errors.map Diagnostic.sourceless = c₂.errors.map Diagnostic.sourceless ∧
      c₁.types.sourceless = c₂.types.sourceless ∧
      c₁.unit.sourceless = c₂.unit.sourceless ∧
      c₁.trace.map TraceEvent.sourceless = c₂.trace.map TraceEvent.sourceless := by
  obtain ⟨c₁, h₁, -⟩ := compileWith_fits config t₁
  obtain ⟨c₂, h₂, -⟩ := compileWith_fits config t₂
  have herased : (compileWith config t₁).map Compilation.sourceless =
      (compileWith config t₂).map Compilation.sourceless := by
    rw [← compileWith_sourceless, ← compileWith_sourceless, h]
  rw [h₁, h₂] at herased
  obtain ⟨htypes, -, hunit, herrors, hpasses, htrace⟩ :=
    Compilation.mk.inj (Except.ok.inj herased)
  exact ⟨c₁, c₂, h₁, h₂, hpasses, herrors, htypes, hunit, htrace⟩

/-- The bank with every node placed in one file. -/
def placedBank : CodeTree.CompileUnit :=
  CodeTree.Recasting.onUnit { source := fun _ => some (.whole ⟨some "bank.src", 1, "bank"⟩) }
    Sample.bank

theorem compileWith_of_placedBank :
    Sample.bank.sourceless = placedBank.sourceless ∧
      ∃ c₁ c₂, compileWith {} Sample.bank = .ok c₁ ∧ compileWith {} placedBank = .ok c₂ ∧
        c₁.passes = c₂.passes ∧
        c₁.errors.map Diagnostic.sourceless = c₂.errors.map Diagnostic.sourceless ∧
        c₁.types.sourceless = c₂.types.sourceless ∧
        c₁.unit.sourceless = c₂.unit.sourceless ∧
        c₁.trace.map TraceEvent.sourceless = c₂.trace.map TraceEvent.sourceless :=
  ⟨rfl, compileWith_of_sourceless_eq {} rfl⟩

end MiddleEnd
