/-
  Escaped characters are read back (`readChar_literalChar`), so the text between two quotes tells
  what is written there, and where it ends (`literal_split`).
-/
import MiddleEnd.Text.Escape

namespace MiddleEnd.Text

/-! ## Hexadecimal digits -/

def hexValue (c : Char) : Nat := if c.isDigit then c.toNat - 48 else c.toNat - 87

def hexOf (cs : List Char) : Nat := cs.foldl (fun n c => 16 * n + hexValue c) 0

theorem hexOf_hexDigits (n : Nat) : hexOf (hexDigits n) = n := by
  induction n using Nat.strongRecOn with
  | ind n ih =>
      have hvalue : ∀ m < 16, hexValue (Nat.digitChar m) = m := by decide
      by_cases hsmall : n < 16
      · rw [hexDigits, Nat.toDigits_of_lt_base hsmall]
        simp [hexOf, hvalue n hsmall]
      · have hfront : hexOf (Nat.toDigits 16 (n / 16)) = n / 16 := ih (n / 16) (by omega)
        have hlast := hvalue (n % 16) (by omega)
        rw [hexDigits, Nat.toDigits_of_base_le (by decide) (by omega)]
        simp only [hexOf, List.foldl_append, List.foldl_cons, List.foldl_nil] at hfront ⊢
        rw [hfront, hlast]
        omega

theorem ne_brace_of_mem_hexDigits {n : Nat} {c : Char} (h : c ∈ hexDigits n) :
    (c != '\x7d') = true := by
  induction n using Nat.strongRecOn with
  | ind n ih =>
      have hdigit : ∀ m < 16, (Nat.digitChar m != '\x7d') = true := by decide
      by_cases hsmall : n < 16
      · rw [hexDigits, Nat.toDigits_of_lt_base hsmall, List.mem_singleton] at h
        rw [h]
        exact hdigit n hsmall
      · rw [hexDigits, Nat.toDigits_of_base_le (by decide) (by omega), List.mem_append,
          List.mem_singleton] at h
        rcases h with h | rfl
        · exact ih (n / 16) (by omega) h
        · exact hdigit (n % 16) (by omega)

/-! ## Escapes -/

/-- Reads a character that may be escaped. -/
def readChar : List Char → Option (Char × List Char)
  | '\\' :: 't' :: cs => some ('\t', cs)
  | '\\' :: 'r' :: cs => some ('\r', cs)
  | '\\' :: 'n' :: cs => some ('\n', cs)
  | '\\' :: 'u' :: cs =>
    some (Char.ofNat (hexOf ((cs.drop 1).takeWhile (· != '\x7d'))),
      ((cs.drop 1).dropWhile (· != '\x7d')).drop 1)
  | '\\' :: c :: cs => some (c, cs)
  | c :: cs => some (c, cs)
  | [] => none

theorem readChar_codePoint (c : Char) (r : List Char) :
    readChar (codePoint c ++ r) = some (c, r) := by
  have hcs : codePoint c ++ r = '\\' :: 'u' :: '\x7b' :: (hexDigits c.toNat ++ '\x7d' :: r) := by
    simp [codePoint]
  have hinside : ∀ d ∈ hexDigits c.toNat, (d != '\x7d') = true :=
    fun _ => ne_brace_of_mem_hexDigits
  rw [hcs, readChar]
  rw [List.drop_one, List.tail_cons, List.takeWhile_append_of_pos hinside,
    List.dropWhile_append_of_pos hinside]
  simp [hexOf_hexDigits]

theorem readChar_plain {c : Char} (hc : c ≠ '\\') (r : List Char) :
    readChar (c :: r) = some (c, r) := by
  simp [readChar, hc]

theorem readChar_literalChar (c : Char) (r : List Char) :
    readChar (literalChar c ++ r) = some (c, r) := by
  by_cases htab : c = '\t'
  · rw [htab]
    rfl
  by_cases hreturn : c = '\r'
  · rw [hreturn]
    rfl
  by_cases hline : c = '\n'
  · rw [hline]
    rfl
  by_cases hquote : c = '\'' ∨ c = '"' ∨ c = '\\'
  · rcases hquote with rfl | rfl | rfl <;> rfl
  rw [literalChar, if_neg htab, if_neg hreturn, if_neg hline, if_neg hquote]
  by_cases hplain : isPlainAscii c = true
  · rw [if_pos hplain]
    exact readChar_plain (fun hc => hquote (Or.inr (Or.inr hc))) r
  · rw [if_neg hplain]
    exact readChar_codePoint c r

theorem literalChar_split {c d : Char} {r s : List Char}
    (h : literalChar c ++ r = literalChar d ++ s) : c = d ∧ r = s := by
  have hread : some (c, r) = some (d, s) := by
    rw [← readChar_literalChar c r, h, readChar_literalChar]
  exact Prod.mk.inj (Option.some.inj hread)

def isQuote (c : Char) : Bool := c == '"' || c == '\''

/-- A quote is always escaped. -/
theorem literalChar_ne_quote {c q : Char} (hq : isQuote q = true) (r s : List Char) :
    literalChar c ++ r ≠ q :: s := by
  intro h
  have hcases : q = '"' ∨ q = '\'' := by simpa [isQuote] using hq
  have hplain : q ≠ '\\' := by rcases hcases with rfl | rfl <;> decide
  have hread : some (c, r) = some (q, s) := by
    rw [← readChar_literalChar c r, h, readChar_plain hplain]
  obtain ⟨rfl, -⟩ := Prod.mk.inj (Option.some.inj hread)
  rcases hcases with rfl | rfl
  all_goals
    have hslash := (List.cons.inj h).1
    exact absurd hslash (by decide)

theorem literal_split {cs ds : List Char} {q : Char} {r s : List Char} (hq : isQuote q = true)
    (h : cs.flatMap literalChar ++ q :: r = ds.flatMap literalChar ++ q :: s) :
    cs = ds ∧ r = s := by
  induction cs generalizing ds with
  | nil =>
      cases ds with
      | nil => exact ⟨rfl, (List.cons.inj h).2⟩
      | cons d ds =>
          rw [List.flatMap_cons, List.append_assoc] at h
          exact absurd h.symm (literalChar_ne_quote hq _ _)
  | cons c cs ih =>
      cases ds with
      | nil =>
          rw [List.flatMap_cons, List.append_assoc] at h
          exact absurd h (literalChar_ne_quote hq _ _)
      | cons d ds =>
          rw [List.flatMap_cons, List.flatMap_cons, List.append_assoc, List.append_assoc] at h
          obtain ⟨rfl, hrest⟩ := literalChar_split h
          obtain ⟨rfl, rfl⟩ := ih hrest
          exact ⟨rfl, rfl⟩

end MiddleEnd.Text
