/-
  Lines and columns. A line counts newlines and a column counts characters, so both can be had by
  walking through the text up to the offset (`locate`). A cut passes the characters in front of it,
  whatever follows (`locate_append`). Inside a character of several bytes there is no newline byte,
  so the line is still known there; the column is given up. What the table of line starts gives, by
  a search and a part of the text, are the counts of the walk (`positionOf_eq_locate`). So the
  position of an offset is read off the bytes and the characters in front of it
  (`positionOf_counts`).
-/
import MiddleEnd.Proofs.Source.Table

namespace MiddleEnd

/-! ## Walking to an offset -/

namespace Document

open Text

/-- Newlines passed and characters since the last of them, `offset` bytes into the text. Inside a
    character the count of the line's characters is given up. -/
def locate : List Char → (offset line column : Nat) → Nat × Nat
  | [], _, line, column => (line, column)
  | c :: cs, offset, line, column =>
    if offset = 0 then (line, column)
    else if offset < c.utf8Size then (line, 0)
    else if c = '\n' then locate cs (offset - 1) (line + 1) 0
    else locate cs (offset - c.utf8Size) line (column + 1)

/-- The column behind one more character. -/
def advance (column : Nat) (c : Char) : Nat := if c = '\n' then 0 else column + 1

/-- Whole characters are passed one by one. -/
theorem locate_append (before after : List Char) (k line column : Nat) :
    locate (before ++ after) ((bytes before).length + k) line column =
      locate after k (line + before.count '\n') (before.foldl advance column) := by
  induction before generalizing line column with
  | nil => rw [bytes_nil, List.length_nil, Nat.zero_add]; rfl
  | cons c before ih =>
      have hpos := c.utf8Size_pos
      rw [length_bytes_cons, Nat.add_assoc, List.cons_append, locate, if_neg (by omega),
        if_neg (by omega), List.foldl_cons, advance]
      by_cases hc : c = '\n'
      · have hsize : c.utf8Size = 1 := by rw [hc]; rfl
        rw [if_pos hc, if_pos hc, hsize, Nat.add_sub_cancel_left, ih, hc, List.count_cons_self]
        congr 1
        omega
      · rw [if_neg hc, if_neg hc, Nat.add_sub_cancel_left, ih, List.count_cons_of_ne hc]

theorem foldl_advance (cs : List Char) : cs.foldl advance 0 = (sinceNewline cs).length := by
  induction cs using List.reverseRecOn with
  | nil => rfl
  | append_singleton cs c ih =>
      rw [List.foldl_append, List.foldl_cons, List.foldl_nil, ih, advance, sinceNewline_concat]
      by_cases hc : c = '\n'
      · rw [if_pos hc, if_pos hc, List.length_nil]
      · rw [if_neg hc, if_neg hc, List.length_append, List.length_singleton]

theorem locate_cut (before after : List Char) :
    locate (before ++ after) (bytes before).length 0 0 =
      (before.count '\n', (sinceNewline before).length) := by
  have h := locate_append before after 0 0 0
  rw [Nat.add_zero, Nat.zero_add, foldl_advance] at h
  rw [h]
  cases after <;> rfl

theorem locate_inside (before after : List Char) {c : Char} {k : Nat} (hpos : 0 < k)
    (hlt : k < c.utf8Size) :
    locate (before ++ c :: after) ((bytes before).length + k) 0 0 = (before.count '\n', 0) := by
  rw [locate_append, locate, if_neg hpos.ne', if_pos hlt, Nat.zero_add]

theorem locate_past (cs : List Char) (offset : Nat) :
    locate cs offset 0 0 = locate cs (min offset (bytes cs).length) 0 0 := by
  rcases Nat.le_total offset (bytes cs).length with hle | hge
  · rw [Nat.min_eq_left hle]
  · obtain ⟨k, rfl⟩ := Nat.exists_eq_add_of_le hge
    rw [Nat.min_eq_right hge]
    have h := locate_append cs [] k 0 0
    have h₀ := locate_append cs [] 0 0 0
    rw [List.append_nil] at h h₀
    exact h.trans h₀.symm

theorem positionOf_of_cut {d : Document} {before after : List Char} {offset : Nat}
    (h : d.text.toList = before ++ after) (hindex : d.lineIndex offset = before.count '\n')
    (hoffset : min offset d.text.utf8ByteSize = (bytes before).length) :
    d.positionOf offset = d.positionAt offset (before.count '\n') (sinceNewline before).length := by
  obtain ⟨front, hbefore, hstart⟩ := exists_lineStart h
  have htext : d.text.toList = front ++ sinceNewline before ++ after := hbefore ▸ h
  have hslice := slice_of_eq_append htext
  rw [← hbefore] at hslice
  rw [positionOf, hindex, hstart, hoffset, Option.getD_some, hslice, Option.map_some,
    Option.getD_some, String.length_ofList]

theorem positionOf_inside {d : Document} {before after : List Char} {c : Char} {k : Nat}
    (h : d.text.toList = before ++ c :: after) (hpos : 0 < k) (hlt : k < c.utf8Size) :
    d.positionOf ((bytes before).length + k) =
      d.positionAt ((bytes before).length + k) (before.count '\n') 0 := by
  obtain ⟨front, hbefore, hstart⟩ := exists_lineStart h
  have htext : d.text.toList = front ++ sinceNewline before ++ c :: after := hbefore ▸ h
  have hslice := slice_inside htext hpos hlt
  have hsize : (bytes before).length + k ≤ d.text.utf8ByteSize := by
    rw [← length_bytes_toList, h, length_bytes_append, length_bytes_cons]
    omega
  rw [← hbefore] at hslice
  rw [positionOf, lineIndex_inside h hpos hlt, hstart, Nat.min_eq_left hsize, Option.getD_some,
    hslice, Option.map_none, Option.getD_none]

/-- Looking an offset up in the table of line starts comes to the same as walking to it. -/
theorem positionOf_eq_locate (d : Document) (offset : Nat) :
    d.positionOf offset =
      d.positionAt offset (locate d.text.toList offset 0 0).1
        (locate d.text.toList offset 0 0).2 := by
  rcases Nat.lt_or_ge (bytes d.text.toList).length offset with hpast | hle
  · have hend : locate d.text.toList (bytes d.text.toList).length 0 0 =
        (d.text.toList.count '\n', (sinceNewline d.text.toList).length) := by
      have hcut := locate_cut d.text.toList []
      rwa [List.append_nil] at hcut
    have hoffset : min offset d.text.utf8ByteSize = (bytes d.text.toList).length := by
      rw [← length_bytes_toList]
      exact Nat.min_eq_right (Nat.le_of_lt hpast)
    rw [positionOf_of_cut (List.append_nil _).symm (lineIndex_past (Nat.le_of_lt hpast)) hoffset,
      locate_past, Nat.min_eq_right (Nat.le_of_lt hpast), hend]
  · obtain ⟨before, after, h, rfl⟩ | ⟨before, c, after, k, h, hpos, hlt, rfl⟩ := cut_or_inside _ hle
    · have hoffset : min (bytes before).length d.text.utf8ByteSize = (bytes before).length := by
        rw [← length_bytes_toList]
        exact Nat.min_eq_left hle
      rw [positionOf_of_cut h (lineIndex_cut h) hoffset, h, locate_cut]
    · rw [positionOf_inside h hpos hlt, h, locate_inside before after hpos hlt]

/-! ## Positions -/

theorem positionAt_eq {d : Document} {offset line column : Nat}
    (hline : d.startLine.toNat + line < UInt32.size) :
    d.positionAt offset line column =
      if column % UInt32.size + 1 < UInt32.size then
        .ok { line := d.startLine.toNat + line, column := column % UInt32.size + 1, offset }
      else .error .addition := by
  have hline' : line % UInt32.size = line := Nat.mod_eq_of_lt (by omega)
  rw [positionAt, hline', sumBelow, sumBelow, if_pos hline]
  by_cases hcolumn : column % UInt32.size + 1 < UInt32.size
  · rw [if_pos hcolumn, if_pos hcolumn]
    rfl
  · rw [if_neg hcolumn, if_neg hcolumn]
    rfl

theorem positionAt_eq_ok {d : Document} {offset line column : Nat}
    (hline : d.startLine.toNat + line < UInt32.size) (hcolumn : column + 1 < UInt32.size) :
    d.positionAt offset line column =
      .ok { line := d.startLine.toNat + line, column := column + 1, offset } := by
  have hcolumn' : column % UInt32.size = column := Nat.mod_eq_of_lt (by omega)
  rw [positionAt_eq hline, hcolumn', if_pos hcolumn]

theorem positionOf_cut {d : Document} {before after : String} (h : d.text = before ++ after)
    (hline : d.startLine.toNat + before.toList.count '\n' < UInt32.size)
    (hcolumn : (sinceNewline before.toList).length + 1 < UInt32.size) :
    d.positionOf before.utf8ByteSize = .ok
      { line := d.startLine.toNat + before.toList.count '\n'
        column := (sinceNewline before.toList).length + 1
        offset := before.utf8ByteSize } := by
  have hcut : locate d.text.toList before.utf8ByteSize 0 0 =
      (before.toList.count '\n', (sinceNewline before.toList).length) := by
    rw [h, String.toList_append, ← length_bytes_toList, locate_cut]
  rw [positionOf_eq_locate, hcut, positionAt_eq_ok hline hcolumn]

end Document

end MiddleEnd
