/-
  The table of line starts. It falls into the starts that a cut has in front of it and those behind
  the newlines that follow (`lineStarts_append`), and it increases (`lineStarts_sorted`). The entry
  for as many newlines as a line has in front is where the line starts (`getElem?_lineStarts`). The
  search for an offset finds the last start that is not behind it (`lineIndex_eq`), so it counts the
  newlines in front of a cut (`lineIndex_cut`), and those in front of the character that the offset
  lies in (`lineIndex_inside`).
-/
import MiddleEnd.Proofs.Number.Search
import MiddleEnd.Proofs.Source.Cuts

namespace MiddleEnd

namespace Text

theorem length_behindNewlines (cs : List Char) (offset : Nat) :
    (behindNewlines cs offset).length = cs.count '\n' := by
  induction cs generalizing offset with
  | nil => rfl
  | cons c cs ih =>
      rw [behindNewlines]
      by_cases hc : c = '\n'
      · rw [if_pos hc, List.length_cons, ih, hc, List.count_cons_self]
      · rw [if_neg hc, ih, List.count_cons_of_ne hc]

theorem behindNewlines_append (cs ds : List Char) (offset : Nat) :
    behindNewlines (cs ++ ds) offset =
      behindNewlines cs offset ++ behindNewlines ds (offset + (bytes cs).length) := by
  induction cs generalizing offset with
  | nil => rfl
  | cons c cs ih =>
      rw [List.cons_append, behindNewlines, behindNewlines, length_bytes_cons]
      by_cases hc : c = '\n'
      · have hsize : c.utf8Size = 1 := by rw [hc]; rfl
        rw [if_pos hc, if_pos hc, hsize, ih, List.cons_append, Nat.add_assoc]
      · rw [if_neg hc, if_neg hc, ih, Nat.add_assoc]

theorem bounds_of_mem_behindNewlines {cs : List Char} {offset start : Nat}
    (h : start ∈ behindNewlines cs offset) :
    offset < start ∧ start ≤ offset + (bytes cs).length := by
  induction cs generalizing offset with
  | nil => cases h
  | cons c cs ih =>
      have hpos := c.utf8Size_pos
      rw [behindNewlines] at h
      rw [length_bytes_cons]
      by_cases hc : c = '\n'
      · rw [if_pos hc, List.mem_cons] at h
        rcases h with rfl | h
        · omega
        · have hrest := ih h
          omega
      · rw [if_neg hc] at h
        have hrest := ih h
        omega

theorem behindNewlines_sorted (cs : List Char) (offset : Nat) :
    (behindNewlines cs offset).Pairwise (· < ·) := by
  induction cs generalizing offset with
  | nil => exact List.Pairwise.nil
  | cons c cs ih =>
      rw [behindNewlines]
      by_cases hc : c = '\n'
      · rw [if_pos hc]
        exact List.Pairwise.cons (fun _ h => (bounds_of_mem_behindNewlines h).1) (ih _)
      · rw [if_neg hc]
        exact ih _

end Text

namespace Document

open Text

variable {d : Document} {before after : List Char}

theorem lineStarts_sorted (d : Document) : d.lineStarts.Pairwise (· < ·) :=
  List.Pairwise.cons (fun _ h => (bounds_of_mem_behindNewlines h).1) (behindNewlines_sorted _ _)

theorem length_lineStarts (d : Document) : d.lineStarts.length = 1 + d.text.toList.count '\n' := by
  rw [lineStarts, List.length_cons, length_behindNewlines, Nat.add_comm]

theorem lineStarts_append (h : d.text.toList = before ++ after) :
    d.lineStarts =
      (0 :: behindNewlines before 0) ++ behindNewlines after (bytes before).length := by
  rw [lineStarts, h, behindNewlines_append, Nat.zero_add, List.cons_append]

theorem getElem?_lineStarts (h : d.text.toList = before ++ after) (hstart : AtLineStart before) :
    d.lineStarts[before.count '\n']? = some (bytes before).length := by
  rcases hstart with rfl | ⟨earlier, rfl⟩
  · rfl
  · have hlast : behindNewlines (earlier ++ ['\n']) 0 =
        behindNewlines earlier 0 ++ [(bytes (earlier ++ ['\n'])).length] := by
      rw [behindNewlines_append, length_bytes_append, Nat.zero_add]
      rfl
    rw [lineStarts_append h, hlast, List.count_append, List.count_singleton_self, List.cons_append,
      List.getElem?_cons_succ, List.append_assoc, List.getElem?_append_right
        (Nat.le_of_eq (length_behindNewlines _ _)), length_behindNewlines, Nat.sub_self]
    rfl

/-- The entry for the newlines in front of a cut is where the characters since the last of them
    start. -/
theorem exists_lineStart (h : d.text.toList = before ++ after) :
    ∃ front, before = front ++ sinceNewline before ∧
      d.lineStarts[before.count '\n']? = some (bytes front).length := by
  obtain ⟨front, hbefore, hfront⟩ := exists_eq_append_sinceNewline before
  have htext : d.text.toList = front ++ (sinceNewline before ++ after) := by
    rw [← List.append_assoc, ← hbefore, h]
  refine ⟨front, hbefore, ?_⟩
  rw [count_front hbefore]
  exact getElem?_lineStarts htext hfront

/-! ## The search in the table -/

/-- The search finds where the starts up to an offset end. -/
theorem lineIndex_eq {offset : Nat} {upTo later : List Nat} (h : d.lineStarts = upTo ++ later)
    (hupTo : ∀ start ∈ upTo, start ≤ offset) (hlater : ∀ start ∈ later, offset < start) :
    d.lineIndex offset = upTo.length - 1 := by
  have hsorted := d.lineStarts_sorted
  have hle : ∀ {j start : Nat}, d.lineStarts[j]? = some start → j < upTo.length →
      start ≤ offset := by
    intro j start hj hlt
    rw [h, List.getElem?_append_left hlt] at hj
    exact hupTo start (List.mem_of_getElem? hj)
  have hgt : ∀ {j start : Nat}, d.lineStarts[j]? = some start → upTo.length ≤ j →
      offset < start := by
    intro j start hj hge
    rw [h, List.getElem?_append_right hge] at hj
    exact hlater start (List.mem_of_getElem? hj)
  have hlength : upTo.length ≤ d.lineStarts.length := by
    rw [h, List.length_append]
    exact Nat.le_add_right _ _
  unfold lineIndex
  cases hs : binarySearch d.lineStarts offset with
  | hit k =>
      -- the entry is one of the first ones, and a later one of these would be above the offset
      have hentry := (binarySearch_eq_hit_iff hsorted).mp hs
      have hlt : k < upTo.length := by
        by_contra hge
        exact absurd (hgt hentry (Nat.not_lt.mp hge)) (Nat.lt_irrefl offset)
      have hlast : upTo.length ≤ k + 1 := by
        by_contra hnext
        have hk : k + 1 < d.lineStarts.length := by omega
        have hnext' := List.getElem?_eq_getElem hk
        have habove := lt_of_sorted hsorted hentry hnext' (Nat.lt_succ_self k)
        have hbelow := hle hnext' (by omega)
        omega
      dsimp only
      omega
  | miss k =>
      have hgap := (binarySearch_eq_miss_iff hsorted).mp hs
      have habsent : offset ∉ d.lineStarts := by
        intro hmem
        obtain ⟨j, hj⟩ := List.mem_iff_getElem?.mp hmem
        have hapart := hgap.2 j offset hj
        split at hapart <;> omega
      have hhere : Gap d.lineStarts offset upTo.length := by
        refine ⟨hlength, fun j start hj => ?_⟩
        by_cases hlt : j < upTo.length
        · rw [if_pos hlt]
          refine Nat.lt_of_le_of_ne (hle hj hlt) ?_
          rintro rfl
          exact habsent (List.mem_of_getElem? hj)
        · rw [if_neg hlt]
          exact hgt hj (Nat.not_lt.mp hlt)
      rw [hgap.unique hhere]

theorem lineIndex_of_append {offset : Nat} (h : d.text.toList = before ++ after)
    (hle : (bytes before).length ≤ offset)
    (hlater : ∀ start ∈ behindNewlines after (bytes before).length, offset < start) :
    d.lineIndex offset = before.count '\n' := by
  have hupTo : ∀ start ∈ 0 :: behindNewlines before 0, start ≤ offset := by
    intro start hmem
    rcases List.mem_cons.mp hmem with rfl | hmem
    · exact Nat.zero_le offset
    · have hbounds := bounds_of_mem_behindNewlines hmem
      omega
  rw [lineIndex_eq (lineStarts_append h) hupTo hlater, List.length_cons, length_behindNewlines,
    Nat.add_sub_cancel]

theorem lineIndex_cut (h : d.text.toList = before ++ after) :
    d.lineIndex (bytes before).length = before.count '\n' :=
  lineIndex_of_append h (Nat.le_refl _) fun _ hmem => (bounds_of_mem_behindNewlines hmem).1

theorem lineIndex_past {offset : Nat} (h : (bytes d.text.toList).length ≤ offset) :
    d.lineIndex offset = d.text.toList.count '\n' :=
  lineIndex_of_append (List.append_nil _).symm h fun _ hmem => absurd hmem List.not_mem_nil

theorem lineIndex_inside {c : Char} {k : Nat} (h : d.text.toList = before ++ c :: after)
    (hpos : 0 < k) (hlt : k < c.utf8Size) :
    d.lineIndex ((bytes before).length + k) = before.count '\n' := by
  have hc : c ≠ '\n' := ne_newline_of_inside hpos hlt
  refine lineIndex_of_append h (Nat.le_add_right _ _) fun start hmem => ?_
  rw [behindNewlines, if_neg hc] at hmem
  have hbounds := bounds_of_mem_behindNewlines hmem
  omega

end Document

end MiddleEnd
