/-
  What is underlined. A region that ends in its first line gets one caret for each of its
  characters. For a region that goes on, the rest of the line is counted in bytes and the part in
  front of the region in characters, so each further byte of a character in the line, in front of
  the region or in it, adds a caret (`caretCount_cut`). The underline is as long as the region
  exactly if that adds none, or one where there is nothing to underline (`render_underlines`).
-/
import MiddleEnd.Diagnostic
import MiddleEnd.Proofs.Source.Lines
import MiddleEnd.Proofs.Source.Position

namespace MiddleEnd

namespace Text

/-- The bytes of a text beyond one for each character. -/
def surplus (s : String) : Nat := s.utf8ByteSize - s.length

theorem utf8ByteSize_eq_add_surplus (s : String) : s.utf8ByteSize = s.length + surplus s := by
  have hle := length_le_bytes s.toList
  rw [length_bytes_toList, String.length_toList] at hle
  rw [surplus]
  omega

end Text

open Text

/-! ## Regions between characters -/

namespace SourceContext

/-- The region is the middle one of three parts of the text, and the offset of its end has 64
    bits. -/
structure Covers (s : SourceContext) (before span after : String) : Prop where
  text : s.document.text = before ++ span ++ after
  offset : s.offset.toNat = before.utf8ByteSize
  length : s.length.toNat = span.utf8ByteSize
  reach : before.utf8ByteSize + span.utf8ByteSize < UInt64.size

namespace Covers

variable {s : SourceContext} {before span after : String}

theorem start_eq (h : s.Covers before span after)
    (hline : s.document.startLine.toNat + before.toList.count '\n' < UInt32.size)
    (hcolumn : (sinceNewline before.toList).length + 1 < UInt32.size) :
    s.start = .ok
      { line := s.document.startLine.toNat + before.toList.count '\n'
        column := (sinceNewline before.toList).length + 1
        offset := before.utf8ByteSize } := by
  rw [start, h.offset]
  exact Document.positionOf_cut (h.text.trans String.append_assoc) hline hcolumn

theorem stop_eq (h : s.Covers before span after)
    (hline : s.document.startLine.toNat + (before ++ span).toList.count '\n' < UInt32.size)
    (hcolumn : (sinceNewline (before ++ span).toList).length + 1 < UInt32.size) :
    s.stop = .ok
      { line := s.document.startLine.toNat + (before ++ span).toList.count '\n'
        column := (sinceNewline (before ++ span).toList).length + 1
        offset := (before ++ span).utf8ByteSize } := by
  have hoffset : s.stopOffset = .ok (before ++ span).utf8ByteSize := by
    rw [stopOffset, sumBelow, h.offset, h.length, if_pos h.reach, String.utf8ByteSize_append]
  rw [stop, hoffset]
  exact Document.positionOf_cut h.text hline hcolumn

theorem line?_eq (h : s.Covers before span after) :
    s.document.line? (s.document.startLine.toNat + before.toList.count '\n') =
      some (lineAround before (span ++ after)) :=
  Document.line?_cut (h.text.trans String.append_assoc)

end Covers

end SourceContext

/-! ## Carets -/

namespace Diagnostic

/-- How many carets a region gets that stands between `before` and `after`. -/
def carets (before span after : String) : Nat :=
  let onFirstLine := (upToNewline span.toList).length
  if '\n' ∈ span.toList then max 1 (onFirstLine + surplus (lineAround before (span ++ after)))
  else max 1 onFirstLine

theorem caretCount_cut (before span after : String) (number : Nat) {start stop : Position}
    (hstart : start.line = number + before.toList.count '\n')
    (hcolumn : start.column = (sinceNewline before.toList).length + 1)
    (hstop : stop.line = number + (before ++ span).toList.count '\n')
    (hcolumn' : stop.column = (sinceNewline (before ++ span).toList).length + 1) :
    caretCount (lineAround before (span ++ after)) start stop = carets before span after := by
  rw [String.toList_append, List.count_append] at hstop
  rw [String.toList_append] at hcolumn'
  unfold caretCount carets
  by_cases hmem : '\n' ∈ span.toList
  · have hcount : 0 < span.toList.count '\n' := List.count_pos_iff.mpr hmem
    rw [if_neg (by omega), if_pos hmem, utf8ByteSize_eq_add_surplus, length_lineAround,
      String.toList_append, upToNewline_append_of_mem _ hmem, hcolumn]
    omega
  · rw [sinceNewline_append _ hmem, List.length_append] at hcolumn'
    have hcount : span.toList.count '\n' = 0 := List.count_eq_zero.mpr hmem
    rw [if_pos (by omega), if_neg hmem, upToNewline_of_not_mem hmem, hcolumn, hcolumn']
    omega

theorem carets_eq_iff (before span after : String) :
    carets before span after = max 1 (upToNewline span.toList).length ↔
      '\n' ∉ span.toList ∨ surplus (lineAround before (span ++ after)) = 0 ∨
        (upToNewline span.toList).length = 0 ∧
          surplus (lineAround before (span ++ after)) = 1 := by
  unfold carets
  by_cases hmem : '\n' ∈ span.toList
  · rw [if_pos hmem]
    simp only [hmem, not_true_eq_false, false_or]
    omega
  · rw [if_neg hmem]
    exact iff_of_true rfl (.inl hmem)

theorem carets_fit_iff (before span after : String) :
    (sinceNewline before.toList).length + carets before span after ≤
        (lineAround before (span ++ after)).length + 1 ↔
      '\n' ∉ span.toList ∨ surplus (lineAround before (span ++ after)) ≤ 1 := by
  unfold carets
  rw [length_lineAround, String.toList_append]
  by_cases hmem : '\n' ∈ span.toList
  · rw [if_pos hmem, upToNewline_append_of_mem _ hmem]
    simp only [hmem, not_true_eq_false, false_or]
    omega
  · rw [if_neg hmem, upToNewline_append _ hmem, upToNewline_of_not_mem hmem, List.length_append]
    refine iff_of_true ?_ (.inl hmem)
    omega

/-- A diagnostic as it is shown with a line of its source and a number of carets below. -/
def shown (p : Palette) (d : Diagnostic) (s : SourceContext) (start : Position) (line : String)
    (carets : Nat) : String :=
  let number := toString start.line
  let margin := " " ++ spaces number.length ++ " " ++ p.frame ++ "|" ++ p.reset
  header p d
    ++ " " ++ p.frame ++ "-->" ++ p.reset ++ " " ++ s.document.displayName ++ ":"
    ++ number ++ ":" ++ toString start.column ++ "\n"
    ++ margin ++ "\n"
    ++ " " ++ p.frame ++ number ++ p.reset ++ " |" ++ p.reset ++ " " ++ line ++ "\n"
    ++ margin ++ " " ++ spaces (start.column - 1)
    ++ p.level d.level ++ String.ofList (List.replicate carets '^') ++ p.reset ++ "\n"
    ++ String.join (d.notes.map (noteLine p))

theorem render_eq_shown (p : Palette) {d : Diagnostic} {s : SourceContext} {start stop : Position}
    {line : String} (hsource : d.source = some s) (hstart : s.start = .ok start)
    (hstop : s.stop = .ok stop) (hline : s.document.line? start.line = some line) :
    d.render p = .ok (shown p d s start line (caretCount line start stop)) := by
  simp only [render, hsource, place, hstart, hstop, hline, bind, Except.bind, pure, Except.pure]
  refine congrArg Except.ok ?_
  unfold shown excerpt underline
  dsimp only
  simp only [String.append_assoc]

/-- A diagnostic for a region between characters whose ends have a line and a column number shows
    the line in which the region begins, and below it blanks up to the region and then the carets.
    There is one caret for each character of the region on that line, and one if there is none,
    exactly if the region ends on the line, or the line has one byte for each character, or no
    character of the region is on it and the line has one byte more than that. The carets end at
    most one behind the line exactly if the region ends on it or it has at most one byte more. -/
theorem render_underlines (p : Palette) {d : Diagnostic} {s : SourceContext}
    {before span after : String} (hsource : d.source = some s) (h : s.Covers before span after)
    (hlines : s.document.startLine.toNat + (before ++ span).toList.count '\n' < UInt32.size)
    (hfirst : (sinceNewline before.toList).length + 1 < UInt32.size)
    (hlast : (sinceNewline (before ++ span).toList).length + 1 < UInt32.size) :
    let line := lineAround before (span ++ after)
    let onFirstLine := (upToNewline span.toList).length
    ∃ start, s.start = .ok start ∧
      d.render p = .ok (shown p d s start line (carets before span after)) ∧
      (carets before span after = max 1 onFirstLine ↔
        '\n' ∉ span.toList ∨ surplus line = 0 ∨ onFirstLine = 0 ∧ surplus line = 1) ∧
      (start.column - 1 + carets before span after ≤ line.length + 1 ↔
        '\n' ∉ span.toList ∨ surplus line ≤ 1) := by
  intro line onFirstLine
  have hbefore : s.document.startLine.toNat + before.toList.count '\n' < UInt32.size := by
    rw [String.toList_append, List.count_append] at hlines
    omega
  refine ⟨_, h.start_eq hbefore hfirst, ?_, carets_eq_iff before span after,
    carets_fit_iff before span after⟩
  rw [render_eq_shown p hsource (h.start_eq hbefore hfirst) (h.stop_eq hlines hlast) h.line?_eq,
    caretCount_cut before span after _ rfl rfl rfl rfl]

/-- A complaint about a part of a source text. -/
def complaint (s : SourceContext) : Diagnostic where
  level := .error
  kind := .structural
  argument := "X"
  source := some s

/-- The word `naïve` has six bytes and gets five carets. -/
theorem render_underlines_naive :
    let s : SourceContext := ⟨⟨none, 1, "ï = naïve;\nend"⟩, 5, 6⟩
    s.Covers "ï = " "naïve" ";\nend" ∧
    s.document.startLine.toNat + ("ï = " ++ "naïve").toList.count '\n' < UInt32.size ∧
    (sinceNewline "ï = ".toList).length + 1 < UInt32.size ∧
    (sinceNewline ("ï = " ++ "naïve").toList).length + 1 < UInt32.size ∧
    ∃ start, s.start = .ok start ∧ start.column = 5 ∧
      (complaint s).render .plain = .ok (shown .plain (complaint s) s start "ï = naïve;" 5) := by
  intro s
  have hcovers : s.Covers "ï = " "naïve" ";\nend" :=
    ⟨by decide +kernel, by decide +kernel, by decide +kernel, by decide +kernel⟩
  have hlines : s.document.startLine.toNat + ("ï = " ++ "naïve").toList.count '\n' <
      UInt32.size := by decide +kernel
  have hfirst : (sinceNewline "ï = ".toList).length + 1 < UInt32.size := by decide +kernel
  have hlast : (sinceNewline ("ï = " ++ "naïve").toList).length + 1 < UInt32.size := by
    decide +kernel
  have hcolumn : s.start.toOption.map Position.column = some 5 := by decide +kernel
  have hline : lineAround "ï = " ("naïve" ++ ";\nend") = "ï = naïve;" := by decide +kernel
  have hinner : '\n' ∉ "naïve".toList := by decide +kernel
  obtain ⟨start, hstart, hrender, hcarets, -⟩ :=
    render_underlines .plain (show (complaint s).source = some s from rfl) hcovers hlines hfirst
      hlast
  have hfive : carets "ï = " "naïve" ";\nend" = 5 :=
    (hcarets.mpr (.inl hinner)).trans (by decide +kernel)
  rw [hstart] at hcolumn
  rw [hline, hfive] at hrender
  exact ⟨hcovers, hlines, hfirst, hlast, start, hstart, Option.some.inj hcolumn, hrender⟩

/-- The letter `é` alone is on the first line of the region, and two carets stand below it. -/
theorem accent_underlined_twice :
    let s : SourceContext := ⟨⟨none, 1, "é\nx"⟩, 0, 4⟩
    s.Covers "" "é\nx" "" ∧ upToNewline "é\nx".toList = ['é'] ∧
    ((complaint s).render .plain).toOption = some
      ("error[ET001]: did not expect a node of kind `X`\n"
        ++ " --> <snippet>:1:1\n"
        ++ "   |\n"
        ++ " 1 | é\n"
        ++ "   | ^^\n") := by
  intro s
  have hcovers : s.Covers "" "é\nx" "" :=
    ⟨by decide +kernel, by decide +kernel, by decide +kernel, by decide +kernel⟩
  exact ⟨hcovers, by decide +kernel, by decide +kernel⟩

end Diagnostic

end MiddleEnd
