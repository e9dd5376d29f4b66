/-
  The pieces of a text. Cutting a text at a separator is cutting a list at an element
  (`pieces_eq_splitOn`), and from the pieces the text can be put together again (`exists_pieces`).
-/
import MiddleEnd.Text.Split
import Mathlib.Data.List.Basic

namespace MiddleEnd.Text

theorem pieces_eq_splitOn (separator : Char) (cs : List Char) :
    pieces separator cs = cs.splitOn separator := by
  induction cs with
  | nil => rfl
  | cons c cs ih =>
      rw [pieces, ih, List.splitOn_cons_eq_if_modifyHead]
      by_cases hc : c = separator
      · rw [if_pos hc, if_pos (beq_iff_eq.mpr hc)]
      · rw [if_neg hc, if_neg (mt beq_iff_eq.mp hc)]
        rcases hs : cs.splitOn separator with _ | ⟨piece, rest⟩
        · exact absurd hs (List.splitOn_ne_nil _ _)
        · rfl

/-- There is a first piece, no piece holds a separator, and with separators between them they make
    up the text. -/
theorem exists_pieces (separator : Char) (cs : List Char) :
    ∃ piece rest, pieces separator cs = piece :: rest ∧ separator ∉ piece ∧
      (∀ p ∈ rest, separator ∉ p) ∧ cs = piece ++ rest.flatMap fun p => separator :: p := by
  induction cs with
  | nil => exact ⟨[], [], rfl, by simp, by simp, rfl⟩
  | cons c cs ih =>
      obtain ⟨piece, rest, hp, hpiece, hrest, hcs⟩ := ih
      rw [pieces, hp]
      by_cases hc : c = separator
      · refine ⟨[], piece :: rest, if_pos hc, by simp, ?_, ?_⟩
        · exact List.forall_mem_cons.mpr ⟨hpiece, hrest⟩
        · rw [hc, hcs]
          simp
      · refine ⟨c :: piece, rest, if_neg hc, ?_, hrest, ?_⟩
        · simp [hpiece, Ne.symm hc]
        · rw [hcs, List.cons_append]

end MiddleEnd.Text
