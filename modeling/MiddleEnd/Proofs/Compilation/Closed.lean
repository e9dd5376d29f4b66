/-
  The middle end never fails. Whatever the code tree and whichever passes are to run, a compilation
  succeeds, and in the universe that it returns nothing dangles (`compileWith_closed`).

  Lowering puts a fresh module next to the core library, so the universe is closed and has the guard
  and its checks; all that comes behind lowering keeps it closed. No bound on the number of types is
  needed for this: positions that wrap around at 32 bits may name the wrong type, but always one
  that is there.
-/
import MiddleEnd.Proofs.Lowering.Declaration
import MiddleEnd.Proofs.Pipeline.Run

namespace MiddleEnd

open Lowering

/-! ## The core library and a module next to it -/

theorem Module.fresh_empty (id : ModuleId) (name : String) : Module.Fresh { id, name } := by
  intro i t hi
  cases hi

theorem coreCheck_plain (guard : TypeId) (name : String) : Plain guard (coreCheck guard name) :=
  ⟨⟨rfl, by simp [TypeRef.void], nofun⟩, rfl⟩

theorem Module.Fresh.addGuard {m : Module} (h : m.Fresh) : (addGuard m).Fresh := by
  refine Module.Fresh.setMembers (Module.Fresh.addType h ?_ rfl rfl) ?_ ?_
  · intro outer ho
    cases ho
  · rw [List.forall_mem_cons, List.forall_mem_singleton]
    exact ⟨(coreCheck_plain _ _).fresh (hasType_addType m _),
      (coreCheck_plain _ _).fresh (hasType_addType m _)⟩
  · exact AccessorsAt.append (.of_none rfl) (.of_none rfl)

def coreModule : Module := addGuard { id := ⟨0⟩, name := "Core" }

/-- The core library with a module behind it. -/
def besideCore (m : Module) : Universe := ⟨⟨#[coreModule, m]⟩⟩

theorem besideCore_fresh {m : Module} (h : m.Fresh) (hid : m.id = ⟨1⟩) : (besideCore m).Fresh := by
  rintro ⟨i⟩ found hi
  match i with
  | 0 =>
      obtain rfl : coreModule = found := Option.some.inj hi
      exact ⟨rfl, Module.Fresh.addGuard (Module.fresh_empty ⟨0⟩ "Core")⟩
  | 1 =>
      obtain rfl : m = found := Option.some.inj hi
      exact ⟨hid, h⟩
  | _ + 2 => cases hi

/-- The guard is found in the core library, whatever the other module declares. -/
theorem wellKnown_besideCore (m : Module) : ∃ w, WellKnown.ofUniverse (besideCore m) = .ok w :=
  ⟨_, rfl⟩

/-- Behind lowering, the module holds what was lowered into it. -/
theorem Universe.module?_lowerInto {σ : Type} {u : Universe} {module : Module} (host : Host σ)
    (tree : CodeTree.CompileUnit) (errors : Sink) (state : σ)
    (hm : u.module? module.id = some module) :
    (u.lowerInto module host tree errors state).types.module? module.id =
      some (unit host tree { module, errors, trace := [], host := state }).2.module := by
  show (u.modules.modify module.id _).get? module.id = _
  rw [Arena.get?_modify, if_pos rfl, show u.modules.get? module.id = some module from hm]
  rfl

namespace Compilation

/-- Lowering fills a fresh module next to the core library, and the unit lists types of it. -/
theorem lower_besideCore (tree : CodeTree.CompileUnit) :
    ∃ m, m.Fresh ∧ m.id = ⟨1⟩ ∧ (lower tree).types = besideCore m ∧
      ∀ id ∈ (lower tree).unit.root.allTypes, m.HasType id := by
  obtain ⟨hfresh, hgrows, htypes⟩ := unit_grows AssemblyTable.host tree { id := ⟨1⟩, name := "App" }
    { module := _, errors := [], trace := [], host := AssemblyTable.standard } rfl
    (Module.fresh_empty ⟨1⟩ "App")
  exact ⟨_, hfresh, hgrows.id_eq, rfl, htypes⟩

end Compilation

/-- A compilation succeeds, and what comes behind lowering fits the layout that lowering made. -/
theorem compileWith_fits (config : PipelineConfig) (tree : CodeTree.CompileUnit) :
    ∃ c, compileWith config tree = .ok c ∧
      c.types.Fits (Compilation.lower tree).types.layout := by
  obtain ⟨m, hfresh, hid, hu, htypes⟩ := Compilation.lower_besideCore tree
  obtain ⟨w, hw⟩ := wellKnown_besideCore m
  have huniverse : (besideCore m).Fresh := besideCore_fresh hfresh hid
  have hmodule : (besideCore m).module? ⟨1⟩ = some m := rfl
  obtain ⟨passes, s, hrun, hs⟩ := Compilation.finish_runs config (Compilation.lower tree).errors
    (Compilation.lower tree).trace (Universe.closed_of_fresh huniverse) hw
    fun id hid => Universe.hasType_of_module huniverse hmodule (htypes id hid)
  rw [← hu] at hrun hs
  refine ⟨{ Compilation.lower tree with types := s.types, passes, trace := s.trace }, ?_, hs⟩
  unfold compileWith Compilation.run
  dsimp only
  rw [hrun]
  rfl

/-- A compilation succeeds for every code tree and every choice of passes. It keeps the types and
    members that lowering made, and every member that a body names, every nested type, every
    declaring type, every accessor and every part of a contract is there. -/
theorem compileWith_closed (config : PipelineConfig) (tree : CodeTree.CompileUnit) :
    ∃ c, compileWith config tree = .ok c ∧
      c.types.layout = (Compilation.lower tree).types.layout ∧ c.types.Closed := by
  obtain ⟨c, hc, hfits⟩ := compileWith_fits config tree
  exact ⟨c, hc, hfits.layout_eq, hfits.closed⟩

end MiddleEnd
