/-
  The lines of a text. A line is told by what stands around it: in front of it the beginning of the
  text or a newline, behind it a newline or the end, and no newline in between (`LineAt`). Every
  number up to the count of newlines has such a line (`exists_lineAt`), and so has every cut
  (`lineAt_cut`). The table of line starts bounds it (`LineAt.bounds_eq`), and between these bounds
  the lookup finds it (`LineAt.line?_eq`). So the line around a cut is known from the two sides
  (`line?_cut`).
-/
import MiddleEnd.Proofs.Source.Table

namespace MiddleEnd

namespace Text

/-- The characters in front of the first newline. -/
def upToNewline (cs : List Char) : List Char := cs.takeWhile (· != '\n')

theorem upToNewline_cons (c : Char) (cs : List Char) :
    upToNewline (c :: cs) = if c = '\n' then [] else c :: upToNewline cs := by
  rw [upToNewline, List.takeWhile_cons]
  by_cases hc : c = '\n'
  · simp [hc]
  · simp [hc, upToNewline]

theorem upToNewline_append {cs : List Char} (ds : List Char) (h : '\n' ∉ cs) :
    upToNewline (cs ++ ds) = cs ++ upToNewline ds := by
  refine List.takeWhile_append_of_pos fun c hc => bne_iff_ne.mpr ?_
  rintro rfl
  exact h hc

theorem upToNewline_of_not_mem {cs : List Char} (h : '\n' ∉ cs) : upToNewline cs = cs := by
  have happend := upToNewline_append [] h
  rwa [List.append_nil, show upToNewline [] = [] from rfl, List.append_nil] at happend

theorem upToNewline_append_of_mem {cs : List Char} (ds : List Char) (h : '\n' ∈ cs) :
    upToNewline (cs ++ ds) = upToNewline cs := by
  induction cs with
  | nil => cases h
  | cons c cs ih =>
      rw [List.cons_append, upToNewline_cons, upToNewline_cons]
      by_cases hc : c = '\n'
      · rw [if_pos hc, if_pos hc]
      · rw [if_neg hc, if_neg hc, ih (List.mem_of_ne_of_mem (Ne.symm hc) h)]

/-- The line around a cut, from what stands on its two sides. -/
def lineAround (before after : String) : String :=
  String.ofList (sinceNewline before.toList ++ upToNewline after.toList)

theorem length_lineAround (before after : String) :
    (lineAround before after).length =
      (sinceNewline before.toList).length + (upToNewline after.toList).length := by
  rw [lineAround, String.length_ofList, List.length_append]

/-! ## A line and what stands around it -/

/-- The line with the number `i`, between the characters in front of it and those behind. -/
structure LineAt (cs : List Char) (i : Nat) (before line after : List Char) : Prop where
  chars : cs = before ++ line ++ after
  number : before.count '\n' = i
  starts : AtLineStart before
  unbroken : '\n' ∉ line
  ends : after = [] ∨ ∃ later, after = '\n' :: later

theorem not_mem_upToNewline (cs : List Char) : '\n' ∉ upToNewline cs := by
  intro h
  simpa using List.mem_takeWhile_imp h

theorem exists_eq_upToNewline_append (cs : List Char) :
    ∃ after, cs = upToNewline cs ++ after ∧ (after = [] ∨ ∃ later, after = '\n' :: later) := by
  induction cs with
  | nil => exact ⟨[], rfl, .inl rfl⟩
  | cons c cs ih =>
      rw [upToNewline_cons]
      by_cases hc : c = '\n'
      · rw [if_pos hc]
        exact ⟨c :: cs, rfl, .inr ⟨cs, by rw [hc]⟩⟩
      · obtain ⟨after, hcs, hafter⟩ := ih
        rw [if_neg hc]
        exact ⟨after, congrArg (c :: ·) hcs, hafter⟩

theorem lineAt_cut (before after : List Char) :
    ∃ front rest, LineAt (before ++ after) (before.count '\n') front
      (sinceNewline before ++ upToNewline after) rest := by
  obtain ⟨front, hbefore, hfront⟩ := exists_eq_append_sinceNewline before
  obtain ⟨rest, hafter, hrest⟩ := exists_eq_upToNewline_append after
  refine ⟨front, rest, ?_, (count_front hbefore).symm, hfront, ?_, hrest⟩
  · rw [← List.append_assoc, ← hbefore, List.append_assoc, ← hafter]
  · rw [List.mem_append, not_or]
    exact ⟨not_mem_sinceNewline before, not_mem_upToNewline after⟩

end Text

/-! ## The lookup of a line -/

namespace Text.LineAt

variable {d : Document} {i : Nat} {before line after : List Char}

theorem bounds_eq (h : LineAt d.text.toList i before line after) :
    d.lineBounds i = some ((bytes before).length, (bytes (before ++ line)).length) := by
  have hfirst : d.lineStarts[i]? = some (bytes before).length :=
    h.number ▸ Document.getElem?_lineStarts (h.chars.trans (List.append_assoc _ _ _)) h.starts
  have hcount : (before ++ line).count '\n' = i := by
    rw [List.count_append, h.number, List.count_eq_zero.mpr h.unbroken, Nat.add_zero]
  have hpast : (d.lineStarts[i + 1]?.map (· - 1)).getD d.text.utf8ByteSize =
      (bytes (before ++ line)).length := by
    have hchars := h.chars
    rcases h.ends with rfl | ⟨later, rfl⟩
    · rw [List.append_nil] at hchars
      have hlast : d.lineStarts.length ≤ i + 1 := by
        rw [Document.length_lineStarts, hchars, hcount, Nat.add_comm]
      rw [List.getElem?_eq_none hlast, Option.map_none, Option.getD_none, ← length_bytes_toList,
        hchars]
    · have hnext : d.lineStarts[i + 1]? = some ((bytes (before ++ line)).length + 1) := by
        have hnewline : d.text.toList = before ++ line ++ ['\n'] ++ later := by
          rw [hchars, List.append_assoc _ ['\n'], List.singleton_append]
        have hstart := Document.getElem?_lineStarts hnewline (.inr ⟨_, rfl⟩)
        rw [List.count_append, hcount, List.count_singleton_self, length_bytes_append] at hstart
        exact hstart
      rw [hnext, Option.map_some, Option.getD_some, Nat.add_sub_cancel]
  rw [Document.lineBounds, hfirst, Option.map_some, hpast]

theorem line?_eq (h : LineAt d.text.toList i before line after) :
    d.line? (d.startLine.toNat + i) = some (String.ofList line) := by
  rw [Document.line?, if_neg (Nat.not_lt.mpr (Nat.le_add_right _ _)), Nat.add_sub_cancel_left,
    h.bounds_eq, Option.bind_some, Document.slice_of_eq_append h.chars]

end Text.LineAt

namespace Document

open Text

theorem line?_cut {d : Document} {before after : String} (h : d.text = before ++ after) :
    d.line? (d.startLine.toNat + before.toList.count '\n') = some (lineAround before after) := by
  obtain ⟨front, rest, hline⟩ := lineAt_cut before.toList after.toList
  rw [← String.toList_append, ← h] at hline
  exact hline.line?_eq

end Document

end MiddleEnd
