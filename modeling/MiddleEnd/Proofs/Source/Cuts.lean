/-
  Cuts of a text. An offset counts bytes, so either it cuts the text between two characters or it
  lies inside one (`cut_or_inside`). A newline is one byte and no other character holds such a byte,
  so newlines are counted in bytes as in characters (`count_newline_bytes`). Between two cuts lies a
  part of the text (`slice_of_eq_append`); inside a character no part ends (`slice_inside`). What is
  in front of a cut falls into whole lines and the characters since the last newline
  (`exists_eq_append_sinceNewline`).
-/
import MiddleEnd.Source.Document
import Mathlib.Data.List.DropRight

namespace MiddleEnd

/-! ## Bytes -/

namespace Text

/-- The UTF-8 form of the characters. -/
def bytes (cs : List Char) : List UInt8 := cs.flatMap String.utf8EncodeChar

@[simp]
theorem bytes_nil : bytes [] = [] := rfl

@[simp]
theorem bytes_cons (c : Char) (cs : List Char) :
    bytes (c :: cs) = String.utf8EncodeChar c ++ bytes cs := rfl

@[simp]
theorem bytes_append (cs ds : List Char) : bytes (cs ++ ds) = bytes cs ++ bytes ds :=
  List.flatMap_append

theorem length_bytes_cons (c : Char) (cs : List Char) :
    (bytes (c :: cs)).length = c.utf8Size + (bytes cs).length := by
  rw [bytes_cons, List.length_append, String.length_utf8EncodeChar]

theorem length_bytes_append (cs ds : List Char) :
    (bytes (cs ++ ds)).length = (bytes cs).length + (bytes ds).length := by
  rw [bytes_append, List.length_append]

theorem bytes_toList (s : String) : bytes s.toList = s.toUTF8.data.toList := by
  show bytes s.toList = s.toByteArray.data.toList
  rw [← String.utf8Encode_toList, List.utf8Encode, List.data_toByteArray]
  rfl

theorem length_bytes_toList (s : String) : (bytes s.toList).length = s.utf8ByteSize := by
  rw [bytes_toList]
  rfl

theorem length_le_bytes (cs : List Char) : cs.length ≤ (bytes cs).length := by
  induction cs with
  | nil => exact Nat.le_refl 0
  | cons c cs ih =>
      have hpos := c.utf8Size_pos
      rw [length_bytes_cons, List.length_cons]
      omega

/-- Every offset in the text cuts it between two characters or lies inside one. -/
theorem cut_or_inside (cs : List Char) {offset : Nat} (h : offset ≤ (bytes cs).length) :
    (∃ before after, cs = before ++ after ∧ offset = (bytes before).length) ∨
      ∃ before c after k, cs = before ++ c :: after ∧ 0 < k ∧ k < c.utf8Size ∧
        offset = (bytes before).length + k := by
  induction cs generalizing offset with
  | nil => exact .inl ⟨[], [], rfl, Nat.le_zero.mp h⟩
  | cons c cs ih =>
      rw [length_bytes_cons] at h
      rcases Nat.eq_zero_or_pos offset with rfl | hpos
      · exact .inl ⟨[], c :: cs, rfl, rfl⟩
      rcases Nat.lt_or_ge offset c.utf8Size with hlt | hge
      · exact .inr ⟨[], c, cs, offset, rfl, hpos, hlt, (Nat.zero_add _).symm⟩
      have hrest : offset - c.utf8Size ≤ (bytes cs).length := by omega
      obtain ⟨before, after, rfl, hb⟩ | ⟨before, d, after, k, rfl, hk, hlt, hb⟩ := ih hrest
      · refine .inl ⟨c :: before, after, rfl, ?_⟩
        rw [length_bytes_cons]
        omega
      · refine .inr ⟨c :: before, d, after, k, rfl, hk, hlt, ?_⟩
        rw [length_bytes_cons]
        omega

/-- A newline has one byte, so no offset lies inside it. -/
theorem ne_newline_of_inside {c : Char} {k : Nat} (hpos : 0 < k) (hlt : k < c.utf8Size) :
    c ≠ '\n' := by
  rintro rfl
  have hsize : '\n'.utf8Size = 1 := rfl
  omega

/-- The characters behind the last newline. -/
def sinceNewline (cs : List Char) : List Char := cs.rtakeWhile (· != '\n')

theorem sinceNewline_concat (cs : List Char) (c : Char) :
    sinceNewline (cs ++ [c]) = if c = '\n' then [] else sinceNewline cs ++ [c] := by
  rw [sinceNewline, List.rtakeWhile_concat]
  by_cases hc : c = '\n'
  · simp [hc]
  · simp [hc, sinceNewline]

theorem sinceNewline_append {cs : List Char} (ds : List Char) (h : '\n' ∉ cs) :
    sinceNewline (ds ++ cs) = sinceNewline ds ++ cs := by
  have hall : ∀ c ∈ cs.reverse, (c != '\n') = true := by
    intro c hc
    rw [bne_iff_ne]
    rintro rfl
    exact h (List.mem_reverse.mp hc)
  rw [sinceNewline, List.rtakeWhile, List.reverse_append, List.takeWhile_append_of_pos hall,
    List.reverse_append, List.reverse_reverse]
  rfl

/-- The beginning of the text or the place behind a newline. -/
def AtLineStart (before : List Char) : Prop :=
  before = [] ∨ ∃ earlier, before = earlier ++ ['\n']

theorem exists_eq_append_sinceNewline (cs : List Char) :
    ∃ front, cs = front ++ sinceNewline cs ∧ AtLineStart front := by
  induction cs using List.reverseRecOn with
  | nil => exact ⟨[], rfl, .inl rfl⟩
  | append_singleton cs c ih =>
      rw [sinceNewline_concat]
      by_cases hc : c = '\n'
      · rw [if_pos hc]
        exact ⟨cs ++ [c], (List.append_nil _).symm, .inr ⟨cs, by rw [hc]⟩⟩
      · obtain ⟨front, hcs, hfront⟩ := ih
        rw [if_neg hc]
        refine ⟨front, ?_, hfront⟩
        rw [← List.append_assoc, ← hcs]

theorem not_mem_sinceNewline (cs : List Char) : '\n' ∉ sinceNewline cs := by
  intro h
  simpa using List.mem_rtakeWhile_imp h

theorem count_front {cs front : List Char} (h : cs = front ++ sinceNewline cs) :
    cs.count '\n' = front.count '\n' := by
  have hcount := congrArg (List.count '\n') h
  rwa [List.count_append, List.count_eq_zero.mpr (not_mem_sinceNewline cs), Nat.add_zero] at hcount

theorem dropBytes_append (before after : List Char) :
    dropBytes (before ++ after) (bytes before).length = some after := by
  induction before with
  | nil => cases after <;> rfl
  | cons c before ih =>
      have hpos := c.utf8Size_pos
      rw [length_bytes_cons, List.cons_append, dropBytes, if_neg (by omega), if_neg (by omega),
        Nat.add_sub_cancel_left, ih]

theorem takeBytes_append (part after : List Char) (k : Nat) :
    takeBytes (part ++ after) ((bytes part).length + k) =
      (takeBytes after k).map (part ++ ·) := by
  induction part with
  | nil =>
      rw [bytes_nil, List.length_nil, Nat.zero_add]
      exact Option.map_id'.symm
  | cons c part ih =>
      have hpos := c.utf8Size_pos
      rw [length_bytes_cons, Nat.add_assoc, List.cons_append, takeBytes, if_neg (by omega),
        if_neg (by omega), Nat.add_sub_cancel_left, ih, Option.map_map]
      rfl

theorem takeBytes_zero (cs : List Char) : takeBytes cs 0 = some [] := by
  cases cs <;> rfl

end Text

namespace Document

open Text

variable {d : Document}

theorem slice_from_cut {before rest : List Char} (h : d.text.toList = before ++ rest) (n : Nat) :
    d.slice ((bytes before).length, (bytes before).length + n) =
      (takeBytes rest n).map String.ofList := by
  rw [slice, if_neg (Nat.not_lt.mpr (Nat.le_add_right _ _)), h, dropBytes_append, Option.bind_some,
    Nat.add_sub_cancel_left]

theorem slice_of_eq_append {before part after : List Char}
    (h : d.text.toList = before ++ part ++ after) :
    d.slice ((bytes before).length, (bytes (before ++ part)).length) =
      some (String.ofList part) := by
  have htake := takeBytes_append part after 0
  rw [Nat.add_zero, takeBytes_zero, Option.map_some, List.append_nil] at htake
  rw [length_bytes_append, slice_from_cut (h.trans (List.append_assoc _ _ _)), htake,
    Option.map_some]

theorem slice_inside {before part after : List Char} {c : Char} {k : Nat}
    (h : d.text.toList = before ++ part ++ c :: after) (hpos : 0 < k) (hlt : k < c.utf8Size) :
    d.slice ((bytes before).length, (bytes (before ++ part)).length + k) = none := by
  have hstop : takeBytes (c :: after) k = none := by
    rw [takeBytes, if_neg hpos.ne', if_pos hlt]
  rw [length_bytes_append, Nat.add_assoc, slice_from_cut (h.trans (List.append_assoc _ _ _)),
    takeBytes_append, hstop]
  rfl

end Document

end MiddleEnd
