/-
  Scanning undoes printing. A value whose numbers are whole and fit 64 bits is printed as a text
  that the scanner takes back in as it was, with nothing left over (`scan_pretty`).

  Three things make this work. Behind a printed value stands a comma, a newline or nothing, so a
  number never runs on. A printed value starts with a character that neither is blank nor closes
  anything, so the scanner never takes an item for the end of its container. And each call of the
  scanner for a value or for the rest of a container passes over a character, so fuel of twice the
  length of the text is enough.
-/
import MiddleEnd.Json.Draft

namespace MiddleEnd

/-! ## What a value is scanned as -/

/-- A whole number of 64 bits, with a sign or without. -/
def JsonNumber.IsWord : JsonNumber → Prop
  | .int i => -9223372036854775808 ≤ i ∧ i < 18446744073709551616
  | .single _ => False
  | .double _ => False

namespace Json

mutual

/-- Every number in the value is a word. -/
def Exact : Json → Prop
  | .null | .bool _ | .string _ => True
  | .number n => n.IsWord
  | .array items => ExactItems items
  | .object fields => ExactFields fields

def ExactItems : List Json → Prop
  | [] => True
  | item :: items => item.Exact ∧ ExactItems items

def ExactFields : List (String × Json) → Prop
  | [] => True
  | (_, value) :: fields => value.Exact ∧ ExactFields fields

end

mutual

/-- A value as a draft without faults. -/
def draft : Json → Draft
  | .null => .null
  | .bool b => .bool b
  | .number n => .number n
  | .string s => .string s
  | .array items => .array (drafts items) none
  | .object fields => .object (fieldDrafts fields) none

def drafts : List Json → List Draft
  | [] => []
  | item :: items => item.draft :: drafts items

def fieldDrafts : List (String × Json) → List (Option String × Draft)
  | [] => []
  | (key, value) :: fields => (some key, value.draft) :: fieldDrafts fields

end

end Json

namespace Draft

open Json (prettyChars prettyItems prettyFields stringChar stringChars intChars newline hexDigit)

/-! ## Blanks -/

/-- A text that goes on with a comma, a newline or not at all. -/
def Ends (rest : List Char) : Prop := ∀ c cs, rest = c :: cs → c = ',' ∨ c = '\n'

theorem ends_nil : Ends [] := nofun

theorem ends_comma (cs : List Char) : Ends (',' :: cs) := by
  rintro c _ ⟨⟩
  exact .inl rfl

theorem ends_newline (depth : Nat) (cs : List Char) : Ends (newline depth ++ cs) := by
  rintro c _ ⟨⟩
  exact .inr rfl

/-- A character that an item of a container may start with. -/
def Opens (c : Char) : Prop := isBlank c = false ∧ c ≠ ']' ∧ c ≠ '\x7d'

theorem skipBlank_of_not_blank {c : Char} (h : isBlank c = false) (cs : List Char) :
    skipBlank (c :: cs) = c :: cs := by
  rw [skipBlank, List.dropWhile_cons_of_neg (by simp [h])]

theorem skipBlank_newline (depth : Nat) (cs : List Char) :
    skipBlank (newline depth ++ cs) = skipBlank cs := by
  refine List.dropWhile_append_of_pos ?_
  intro c hc
  rw [newline, List.mem_cons, List.mem_replicate] at hc
  rcases hc with rfl | ⟨-, rfl⟩ <;> rfl

/-! ## Strings -/

theorem hexValue_hexDigit : ∀ d < 16, hexValue (hexDigit d) = some d := by decide

/-- How a character of a string is read: short of an escape of its own, by its number. -/
def pieceOf (c : Char) : Piece :=
  if c = '"' ∨ c = '\\' ∨ c = '\n' ∨ c = '\r' ∨ c = '\t' ∨ c = '\x08' ∨ c = '\x0c' then .char c
  else if c.toNat < 0x20 then .unit c.toNat
  else .char c

theorem pieces_stringChar (c : Char) (cs : List Char) :
    pieces (stringChar c ++ cs) = (pieceOf c :: (pieces cs).1, (pieces cs).2) := by
  unfold stringChar pieceOf
  by_cases hquote : c = '"'
  · subst hquote; rfl
  by_cases hslash : c = '\\'
  · subst hslash; rfl
  by_cases hn : c = '\n'
  · subst hn; rfl
  by_cases hr : c = '\r'
  · subst hr; rfl
  by_cases ht : c = '\t'
  · subst ht; rfl
  by_cases hb : c = '\x08'
  · subst hb; rfl
  by_cases hf : c = '\x0c'
  · subst hf; rfl
  simp only [hquote, hslash, hn, hr, ht, hb, hf, if_false, or_self]
  by_cases hcontrol : c.toNat < 0x20
  · have hunit : hexUnit '0' '0' (hexDigit (c.toNat / 16)) (hexDigit (c.toNat % 16)) =
        some c.toNat := by
      have hvalue : (0 * 16 + 0) * 16 * 16 + c.toNat / 16 * 16 + c.toNat % 16 = c.toNat := by omega
      simp only [hexUnit, hexValue_hexDigit _ (show c.toNat / 16 < 16 by omega),
        hexValue_hexDigit _ (show c.toNat % 16 < 16 by omega), show hexValue '0' = some 0 from rfl]
      simp only [bind, Option.bind, pure, Option.some.injEq]
      omega
    simp only [hcontrol, if_true, List.cons_append, List.nil_append, pieces, hunit]
  · simp only [hcontrol, if_false, List.cons_append, List.nil_append]
    rw [pieces.eq_def]
    split <;> simp_all

theorem pieces_flatMap (cs rest : List Char) :
    pieces (cs.flatMap stringChar ++ '"' :: rest) = (cs.map pieceOf, .ok rest) := by
  induction cs with
  | nil => rfl
  | cons c cs ih =>
      rw [List.flatMap_cons, List.append_assoc, pieces_stringChar, ih]
      rfl

theorem assemble_cons_pieceOf (c : Char) (ps : List Piece) :
    assemble (pieceOf c :: ps) = (assemble ps).map (c :: ·) := by
  unfold pieceOf
  split
  · rw [assemble]
  · split
    · rename_i hcontrol
      -- what is written by its number is no surrogate
      have hhigh : isHigh c.toNat = false := by simp [isHigh]; omega
      have hlow : isLow c.toNat = false := by simp [isLow]; omega
      rw [assemble.eq_def]
      simp [hhigh, hlow]
    · rw [assemble]

theorem assemble_map_pieceOf (cs : List Char) : assemble (cs.map pieceOf) = some cs := by
  induction cs with
  | nil => rfl
  | cons c cs ih =>
      rw [List.map_cons, assemble_cons_pieceOf, ih]
      rfl

theorem string?_stringChars (s : String) (rest : List Char) :
    string? (s.toList.flatMap stringChar ++ '"' :: rest) = (some s, .ok rest) := by
  simp only [string?, pieces_flatMap, assemble_map_pieceOf, Option.map_some, String.ofList_toList]

/-! ## Numbers -/

theorem isDigit_of_mem_toDigits {n : Nat} {c : Char} (h : c ∈ Nat.toDigits 10 n) :
    isDigit c = true := by
  have := Nat.isDigit_of_mem_toDigits (by decide) (by decide) h
  simpa [isDigit, Char.isDigit, Char.le_def] using this

theorem natOf_toDigits (n : Nat) : natOf (Nat.toDigits 10 n) = n := by
  have hstep : (fun n c => n * 10 + digitValue c) =
      fun (n : Nat) (c : Char) => 10 * n + (c.toNat - '0'.toNat) := by
    funext n c
    rw [Nat.mul_comm]
    rfl
  rw [natOf, hstep]
  exact Nat.ofDigitChars_toDigits (by decide) (by decide)

theorem isDigit_of_ends {c : Char} {cs : List Char} (h : Ends (c :: cs)) : isDigit c = false := by
  rcases h c cs rfl with rfl | rfl <;> rfl

theorem takeWhile_digits (n : Nat) {rest : List Char} (h : Ends rest) :
    (Nat.toDigits 10 n ++ rest).takeWhile isDigit = Nat.toDigits 10 n := by
  rw [List.takeWhile_append_of_pos fun c hc => isDigit_of_mem_toDigits hc]
  cases rest with
  | nil => simp
  | cons c cs => simp [isDigit_of_ends h]

theorem dropWhile_digits (n : Nat) {rest : List Char} (h : Ends rest) :
    (Nat.toDigits 10 n ++ rest).dropWhile isDigit = rest := by
  rw [List.dropWhile_append_of_pos fun c hc => isDigit_of_mem_toDigits hc]
  cases rest with
  | nil => rfl
  | cons c cs => simp [isDigit_of_ends h]

/-- No zero leads. -/
theorem toDigits_leads (n : Nat) (hn : 0 < n) (cs : List Char) : Nat.toDigits 10 n ≠ '0' :: cs := by
  induction n using Nat.strongRecOn generalizing cs with
  | _ n ih =>
      by_cases hsmall : n < 10
      · rw [Nat.toDigits_of_lt_base hsmall]
        have hdigit : ∀ m < 10, 0 < m → Nat.digitChar m ≠ '0' := by decide
        simp [hdigit n hsmall hn]
      · rw [Nat.toDigits_of_base_le (by decide) (by omega)]
        intro h
        obtain ⟨hnil, -⟩ | ⟨ds, h, -⟩ := List.append_eq_cons_iff.mp h
        · exact Nat.toDigits_ne_nil hnil
        · exact ih (n / 10) (by omega) (by omega) ds h

theorem scanWhole_digits (n : Nat) {rest : List Char} (h : Ends rest) :
    scanWhole (Nat.toDigits 10 n ++ rest) = .ok (Nat.toDigits 10 n, rest) := by
  unfold scanWhole
  rw [takeWhile_digits n h, dropWhile_digits n h]
  split
  · rename_i hnil
    exact absurd hnil Nat.toDigits_ne_nil
  · rename_i hzero
    -- a zero in front stands alone
    by_cases hn : 0 < n
    · exact absurd hzero (toDigits_leads n hn _)
    · obtain rfl : n = 0 := by omega
      simp [Nat.toDigits_of_lt_base] at hzero
  · rfl

theorem scanParts_digits (negative : Bool) (n : Nat) {rest : List Char} (h : Ends rest) :
    scanParts negative (Nat.toDigits 10 n ++ rest) =
      .ok (⟨negative, Nat.toDigits 10 n, none, none⟩, rest) := by
  have hfraction : scanFraction rest = .ok (none, rest) := by
    unfold scanFraction
    split
    · rcases h _ _ rfl with hc | hc <;> cases hc
    · rfl
  have hexponent : scanExponent rest = .ok (none, rest) := by
    unfold scanExponent
    cases rest with
    | nil => rfl
    | cons c cs => rcases h c cs rfl with rfl | rfl <;> rfl
  simp only [scanParts, scanWhole_digits n h, hfraction, hexponent, bind, Except.bind]
  rfl

theorem value_digits (n : Nat) (h : n < 18446744073709551616) :
    NumberParts.value ⟨false, Nat.toDigits 10 n, none, none⟩ = some (.int n) := by
  have hsize : n < UInt64.size := h
  simp [NumberParts.value, natOf_toDigits, hsize]

theorem value_negative_digits (n : Nat) (hpos : 0 < n) (h : n ≤ 9223372036854775808) :
    NumberParts.value ⟨true, Nat.toDigits 10 n, none, none⟩ = some (.int (-n)) := by
  have hsize : n ≤ Nat.pow 2 63 := h
  simp [NumberParts.value, natOf_toDigits, hpos, hsize]

/-! ## Values -/

theorem isDigit_iff {c : Char} : isDigit c = true ↔ 48 ≤ c.toNat ∧ c.toNat ≤ 57 := by
  simp only [isDigit, Bool.and_eq_true, decide_eq_true_eq, Char.le_def, UInt32.le_iff_toNat_le]
  rfl

theorem opens_of_isDigit {c : Char} (h : isDigit c = true) : Opens c := by
  obtain ⟨hlo, hhi⟩ := isDigit_iff.mp h
  refine ⟨?_, ?_, ?_⟩
  · simp only [isBlank, Bool.or_eq_false_iff, beq_eq_false_iff_ne]
    refine ⟨⟨⟨?_, ?_⟩, ?_⟩, ?_⟩ <;> (rintro rfl; revert hlo; decide)
  · rintro rfl
    revert hhi
    decide
  · rintro rfl
    revert hhi
    decide

theorem intChars_opens (i : Int) : ∃ c cs, intChars i = c :: cs ∧ Opens c := by
  unfold intChars
  split
  · exact ⟨_, _, rfl, by decide, by decide, by decide⟩
  · obtain ⟨c, cs, hcs⟩ :=
      List.exists_cons_of_ne_nil (Nat.toDigits_ne_nil (n := i.natAbs) (b := 10))
    refine ⟨c, cs, hcs, opens_of_isDigit (isDigit_of_mem_toDigits (n := i.natAbs) ?_)⟩
    rw [hcs]
    exact List.mem_cons_self

theorem prettyChars_opens (depth : Nat) {j : Json} (h : j.Exact) :
    ∃ c cs, prettyChars depth j = c :: cs ∧ Opens c := by
  cases j with
  | null => exact ⟨_, _, rfl, by decide, by decide, by decide⟩
  | bool b => cases b <;> exact ⟨_, _, rfl, by decide, by decide, by decide⟩
  | number n =>
      cases n with
      | int i => exact intChars_opens i
      | single v => exact h.elim
      | double v => exact h.elim
  | string s => exact ⟨_, _, rfl, by decide, by decide, by decide⟩
  | array items => cases items <;> exact ⟨_, _, rfl, by decide, by decide, by decide⟩
  | object fields => cases fields <;> exact ⟨_, _, rfl, by decide, by decide, by decide⟩

theorem scanValue_blank (fuel : Nat) (cs : List Char) :
    scanValue fuel (' ' :: cs) = scanValue fuel cs := by
  cases fuel <;> rfl

theorem scanValue_int (fuel : Nat) (i : Int) {rest : List Char} (hi : (JsonNumber.int i).IsWord)
    (hr : Ends rest) :
    scanValue (fuel + 1) (intChars i ++ rest) = (.number (.int i), .ok rest) := by
  obtain ⟨hlo, hhi⟩ := hi
  unfold intChars
  split
  · rename_i hneg
    have hvalue := value_negative_digits i.natAbs (by omega) (by omega)
    rw [show -(i.natAbs : Int) = i by omega] at hvalue
    show scanNumber true (Nat.toDigits 10 i.natAbs ++ rest) = _
    simp only [scanNumber, scanParts_digits true i.natAbs hr, hvalue]
  · have hvalue := value_digits i.natAbs (by omega)
    rw [show (i.natAbs : Int) = i by omega] at hvalue
    have hscan :
        scanNumber false (Nat.toDigits 10 i.natAbs ++ rest) = (.number (.int i), .ok rest) := by
      simp only [scanNumber, scanParts_digits false i.natAbs hr, hvalue]
    obtain ⟨c, cs, hcs⟩ :=
      List.exists_cons_of_ne_nil (Nat.toDigits_ne_nil (n := i.natAbs) (b := 10))
    have hdigit : isDigit c = true := isDigit_of_mem_toDigits (n := i.natAbs) (by simp [hcs])
    rw [hcs, List.cons_append] at hscan ⊢
    rw [scanValue, skipBlank_of_not_blank (opens_of_isDigit hdigit).1]
    obtain ⟨hlo, hhi⟩ := isDigit_iff.mp hdigit
    have hne : ∀ d : Char, d.toNat < 48 ∨ 57 < d.toNat → c ≠ d := by
      rintro d hd rfl
      omega
    simp only [hne 'n' (by decide), hne 't' (by decide), hne 'f' (by decide), hne '-' (by decide),
      if_false, hdigit, if_true, hscan]

/-! ## Containers -/

theorem scanSeparator_first (close : Char) (depth : Nat) {c : Char} (cs : List Char)
    (hb : isBlank c = false) (hc : c ≠ close) :
    scanSeparator close true (newline depth ++ c :: cs) = .ok (.inl (c :: cs)) := by
  rw [scanSeparator, skipBlank_newline, skipBlank_of_not_blank hb]
  simp [hc]

theorem scanSeparator_comma (close : Char) (depth : Nat) {c : Char} (cs : List Char)
    (hclose : close ≠ ',') (hb : isBlank c = false) (hc : c ≠ close) :
    scanSeparator close false (',' :: newline depth ++ c :: cs) = .ok (.inl (c :: cs)) := by
  rw [List.cons_append, scanSeparator, skipBlank_of_not_blank (by decide)]
  simp [hclose.symm, skipBlank_newline, skipBlank_of_not_blank hb, hc]

theorem scanSeparator_close (close : Char) (first : Bool) (depth : Nat) (cs : List Char)
    (hb : isBlank close = false) :
    scanSeparator close first (newline depth ++ close :: cs) = .ok (.inr cs) := by
  rw [scanSeparator, skipBlank_newline, skipBlank_of_not_blank hb]
  simp

theorem scanSeparator_first_key (depth : Nat) (key : String) (cs : List Char) :
    scanSeparator '\x7d' true (newline depth ++ (stringChars key ++ cs)) =
      .ok (.inl (stringChars key ++ cs)) :=
  scanSeparator_first '\x7d' depth _ (by decide) (by decide)

theorem scanSeparator_comma_key (depth : Nat) (key : String) (cs : List Char) :
    scanSeparator '\x7d' false (',' :: newline depth ++ (stringChars key ++ cs)) =
      .ok (.inl (stringChars key ++ cs)) :=
  scanSeparator_comma '\x7d' depth _ (by decide) (by decide) (by decide)

theorem scanKey_stringChars (key : String) (cs : List Char) :
    scanKey (stringChars key ++ ':' :: cs) = .ok (some key, cs) := by
  have hchars : stringChars key ++ ':' :: cs =
      '"' :: (key.toList.flatMap stringChar ++ '"' :: ':' :: cs) := by simp [stringChars]
  rw [hchars]
  simp only [scanKey, string?_stringChars,
    skipBlank_of_not_blank (show isBlank ':' = false from rfl)]

theorem scanItems_cons {fuel : Nat} {first : Bool} {cs cs₁ cs₂ rest : List Char} {item : Draft}
    {items : List Draft} (hs : scanSeparator ']' first cs = .ok (.inl cs₁))
    (hv : scanValue fuel cs₁ = (item, .ok cs₂))
    (hi : scanItems fuel false cs₂ = (items, .ok rest)) :
    scanItems (fuel + 1) first cs = (item :: items, .ok rest) := by
  simp only [scanItems, hs, hv, hi]

theorem scanFields_cons {fuel : Nat} {first : Bool} {cs cs₁ cs₂ cs₃ rest : List Char}
    {key : Option String} {value : Draft} {fields : List (Option String × Draft)}
    (hs : scanSeparator '\x7d' first cs = .ok (.inl cs₁)) (hk : scanKey cs₁ = .ok (key, cs₂))
    (hv : scanValue fuel cs₂ = (value, .ok cs₃))
    (hf : scanFields fuel false cs₃ = (fields, .ok rest)) :
    scanFields (fuel + 1) first cs = ((key, value) :: fields, .ok rest) := by
  simp only [scanFields, hs, hk, hv, hf]

theorem scanValue_array {fuel : Nat} {cs rest : List Char} {items : List Draft}
    (h : scanItems fuel true cs = (items, .ok rest)) :
    scanValue (fuel + 1) ('[' :: cs) = (.array items none, .ok rest) := by
  show (Draft.array (scanItems fuel true cs).1 (stopOf (scanItems fuel true cs).2),
    (scanItems fuel true cs).2) = _
  rw [h]
  rfl

theorem scanValue_object {fuel : Nat} {cs rest : List Char} {fields : List (Option String × Draft)}
    (h : scanFields fuel true cs = (fields, .ok rest)) :
    scanValue (fuel + 1) ('\x7b' :: cs) = (.object fields none, .ok rest) := by
  show (Draft.object (scanFields fuel true cs).1 (stopOf (scanFields fuel true cs).2),
    (scanFields fuel true cs).2) = _
  rw [h]
  rfl

theorem ends_items (depth outer : Nat) (items : List Json) (cs : List Char) :
    Ends (prettyItems depth items ++ newline outer ++ cs) := by
  cases items with
  | nil => exact ends_newline outer cs
  | cons item items => exact ends_comma _

theorem ends_fields (depth outer : Nat) (fields : List (String × Json)) (cs : List Char) :
    Ends (prettyFields depth fields ++ newline outer ++ cs) := by
  cases fields with
  | nil => exact ends_newline outer cs
  | cons field fields => exact ends_comma _

theorem prettyChars_array_cons (depth : Nat) (item : Json) (items : List Json)
    (rest : List Char) :
    prettyChars depth (.array (item :: items)) ++ rest =
      '[' :: (newline (depth + 1) ++ (prettyChars (depth + 1) item ++
        (prettyItems (depth + 1) items ++ newline depth ++ ']' :: rest))) := by
  simp [prettyChars]

theorem prettyChars_object_cons (depth : Nat) (key : String) (value : Json)
    (fields : List (String × Json)) (rest : List Char) :
    prettyChars depth (.object ((key, value) :: fields)) ++ rest =
      '\x7b' :: (newline (depth + 1) ++ (stringChars key ++ ':' :: ' ' ::
        (prettyChars (depth + 1) value ++
          (prettyFields (depth + 1) fields ++ newline depth ++ '\x7d' :: rest)))) := by
  simp [prettyChars]

mutual

theorem scanValue_pretty : (j : Json) → (depth fuel : Nat) → (rest : List Char) → j.Exact →
    Ends rest → 2 * (prettyChars depth j).length ≤ fuel + 2 →
    scanValue (fuel + 1) (prettyChars depth j ++ rest) = (j.draft, .ok rest)
  | .null, _, _, _, _, _, _ => rfl
  | .bool true, _, _, _, _, _, _ => rfl
  | .bool false, _, _, _, _, _, _ => rfl
  | .number (.int i), _, fuel, _, hj, hr, _ => scanValue_int fuel i hj hr
  | .string s, _, fuel, rest, _, _, _ => by
      have hchars :
          stringChars s ++ rest = '"' :: (s.toList.flatMap stringChar ++ '"' :: rest) := by
        simp [stringChars]
      rw [prettyChars, hchars, scanValue, skipBlank_of_not_blank (by decide)]
      simp [string?_stringChars, isDigit, Json.draft]
  | .array [], _, fuel, rest, _, _, hf => by
      obtain ⟨fuel, rfl⟩ : ∃ f, fuel = f + 1 := ⟨fuel - 1, by simp [prettyChars] at hf; omega⟩
      rfl
  | .array (item :: items), depth, fuel, rest, hj, hr, hf => by
      obtain ⟨c, cs, hcs, hblank, hclose, -⟩ := prettyChars_opens (depth + 1) hj.1
      have hlength : (prettyChars depth (.array (item :: items))).length =
          2 + (newline (depth + 1)).length + (prettyChars (depth + 1) item).length +
            (prettyItems (depth + 1) items).length + (newline depth).length := by
        simp [prettyChars]; omega
      obtain ⟨fuel, rfl⟩ : ∃ f, fuel = f + 2 := ⟨fuel - 2, by omega⟩
      rw [prettyChars_array_cons]
      refine scanValue_array (scanItems_cons ?_
        (scanValue_pretty item (depth + 1) fuel _ hj.1 (ends_items _ depth items _) (by omega))
        (scanItems_pretty items (depth + 1) depth fuel rest hj.2 (by omega)))
      rw [hcs, List.cons_append]
      exact scanSeparator_first ']' (depth + 1) _ hblank hclose
  | .object [], _, fuel, rest, _, _, hf => by
      obtain ⟨fuel, rfl⟩ : ∃ f, fuel = f + 1 := ⟨fuel - 1, by simp [prettyChars] at hf; omega⟩
      rfl
  | .object ((key, value) :: fields), depth, fuel, rest, hj, hr, hf => by
      have hlength : (prettyChars depth (.object ((key, value) :: fields))).length =
          4 + (newline (depth + 1)).length + (stringChars key).length +
            (prettyChars (depth + 1) value).length + (prettyFields (depth + 1) fields).length +
            (newline depth).length := by
        simp [prettyChars]; omega
      obtain ⟨fuel, rfl⟩ : ∃ f, fuel = f + 2 := ⟨fuel - 2, by omega⟩
      rw [prettyChars_object_cons]
      refine scanValue_object (scanFields_cons (scanSeparator_first_key (depth + 1) key _)
        (scanKey_stringChars key _) ?_
        (scanFields_pretty fields (depth + 1) depth fuel rest hj.2 (by omega)))
      rw [scanValue_blank]
      exact scanValue_pretty value (depth + 1) fuel _ hj.1 (ends_fields _ depth fields _)
        (by omega)

theorem scanItems_pretty : (items : List Json) → (depth outer fuel : Nat) → (rest : List Char) →
    Json.ExactItems items → 2 * (prettyItems depth items).length ≤ fuel →
    scanItems (fuel + 1) false (prettyItems depth items ++ newline outer ++ ']' :: rest) =
      (Json.drafts items, .ok rest)
  | [], depth, outer, fuel, rest, _, _ => by
      simp only [scanItems, prettyItems, List.nil_append,
        scanSeparator_close ']' false outer rest (by decide)]
      rfl
  | item :: items, depth, outer, fuel, rest, hj, hf => by
      obtain ⟨c, cs, hcs, hblank, hclose, -⟩ := prettyChars_opens depth hj.1
      have hlength : (prettyItems depth (item :: items)).length =
          1 + (newline depth).length + (prettyChars depth item).length +
            (prettyItems depth items).length := by
        simp [prettyItems]; omega
      obtain ⟨fuel, rfl⟩ : ∃ f, fuel = f + 1 := ⟨fuel - 1, by omega⟩
      have hchars : prettyItems depth (item :: items) ++ newline outer ++ ']' :: rest =
          ',' :: newline depth ++ (prettyChars depth item ++
            (prettyItems depth items ++ newline outer ++ ']' :: rest)) := by
        simp [prettyItems]
      rw [hchars]
      refine scanItems_cons ?_
        (scanValue_pretty item depth fuel _ hj.1 (ends_items depth outer items _) (by omega))
        (scanItems_pretty items depth outer fuel rest hj.2 (by omega))
      rw [hcs, List.cons_append]
      exact scanSeparator_comma ']' depth _ (by decide) hblank hclose

theorem scanFields_pretty : (fields : List (String × Json)) → (depth outer fuel : Nat) →
    (rest : List Char) → Json.ExactFields fields → 2 * (prettyFields depth fields).length ≤ fuel →
    scanFields (fuel + 1) false (prettyFields depth fields ++ newline outer ++ '\x7d' :: rest) =
      (Json.fieldDrafts fields, .ok rest)
  | [], depth, outer, fuel, rest, _, _ => by
      simp only [scanFields, prettyFields, List.nil_append,
        scanSeparator_close '\x7d' false outer rest (by decide)]
      rfl
  | (key, value) :: fields, depth, outer, fuel, rest, hj, hf => by
      have hlength : (prettyFields depth ((key, value) :: fields)).length =
          3 + (newline depth).length + (stringChars key).length + (prettyChars depth value).length +
            (prettyFields depth fields).length := by
        simp [prettyFields]; omega
      obtain ⟨fuel, rfl⟩ : ∃ f, fuel = f + 1 := ⟨fuel - 1, by omega⟩
      have hchars : prettyFields depth ((key, value) :: fields) ++ newline outer ++ '\x7d' :: rest =
          ',' :: newline depth ++ (stringChars key ++ ':' :: ' ' :: (prettyChars depth value ++
            (prettyFields depth fields ++ newline outer ++ '\x7d' :: rest))) := by
        simp [prettyFields]
      rw [hchars]
      refine scanFields_cons (scanSeparator_comma_key depth key _) (scanKey_stringChars key _) ?_
        (scanFields_pretty fields depth outer fuel rest hj.2 (by omega))
      rw [scanValue_blank]
      exact scanValue_pretty value depth fuel _ hj.1 (ends_fields depth outer fields _) (by omega)

end

/-- A printed value is read as it was, and nothing is left behind it. -/
theorem scan_pretty {j : Json} (h : j.Exact) : scan j.pretty = (j.draft, .ok []) := by
  have hscan := scanValue_pretty j 0 (2 * (prettyChars 0 j).length) [] h ends_nil (by omega)
  rw [List.append_nil] at hscan
  rw [scan, Json.pretty, String.toList_ofList]
  exact hscan

end Draft

end MiddleEnd
