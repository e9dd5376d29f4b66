/-
  Words: code whose text runs on without a break. The parts of a text that are divided by breaks can
  be told (`split_unique`), and a word can be read back from its text: names, keywords, numbers and
  temporaries (`ofWord_text`), types (`TypeRef.text_inj_of_isWord`) and members
  (`MemberRef.text_inj`).
-/
import MiddleEnd.Code.Text
import MiddleEnd.Proofs.Number.Numeral
import MiddleEnd.Proofs.Text.Escape

namespace MiddleEnd

/-! ## Splitting a text -/

/-- The text is over, or goes on with a character of this class. -/
def GoesOn (p : Char → Bool) (r : List Char) : Prop := ∀ c ∈ r.head?, p c = true

section

variable {p q : Char → Bool} {r s : List Char}

@[simp] theorem goesOn_nil : GoesOn p [] := by simp [GoesOn]

@[simp] theorem goesOn_cons {c : Char} : GoesOn p (c :: r) ↔ p c = true := by simp [GoesOn]

theorem GoesOn.mono (h : GoesOn p r) (hpq : ∀ c, p c = true → q c = true) : GoesOn q r :=
  fun c hc => hpq c (h c hc)

theorem takeWhile_append_of_goesOn {l : List Char} (hl : ∀ c ∈ l, p c = true)
    (hr : GoesOn (!p ·) r) : (l ++ r).takeWhile p = l := by
  rw [List.takeWhile_append_of_pos hl]
  cases r with
  | nil => exact List.append_nil l
  | cons c r => simp_all

theorem dropWhile_append_of_goesOn {l : List Char} (hl : ∀ c ∈ l, p c = true)
    (hr : GoesOn (!p ·) r) : (l ++ r).dropWhile p = r := by
  rw [List.dropWhile_append_of_pos hl]
  cases r with
  | nil => rfl
  | cons c r => simp_all

/-- What keeps to a class of characters is told from what comes behind it. -/
theorem split_unique {l l' : List Char} (h : l ++ r = l' ++ s) (hl : ∀ c ∈ l, p c = true)
    (hl' : ∀ c ∈ l', p c = true) (hr : GoesOn (!p ·) r) (hs : GoesOn (!p ·) s) :
    l = l' ∧ r = s := by
  have htake : (l ++ r).takeWhile p = (l' ++ s).takeWhile p := congrArg _ h
  rw [takeWhile_append_of_goesOn hl hr, takeWhile_append_of_goesOn hl' hs] at htake
  subst htake
  exact ⟨rfl, List.append_cancel_left h⟩

end

/-- A character that ends a word. -/
def isBreak (c : Char) : Bool := ['.', ',', '(', ')', '[', ']', ' '].contains c

def Unbroken (cs : List Char) : Prop := ∀ c ∈ cs, (!isBreak c) = true

instance (cs : List Char) : Decidable (Unbroken cs) :=
  List.decidableBAll (fun c => (!isBreak c) = true) cs

theorem unbroken_append {cs ds : List Char} : Unbroken (cs ++ ds) ↔ Unbroken cs ∧ Unbroken ds :=
  List.forall_mem_append

/-! ## Numbers -/

theorem not_isBreak_of_isNumeral {c : Char} (h : isNumeral c = true) : (!isBreak c) = true := by
  cases hc : isBreak c with
  | false => rfl
  | true =>
      simp only [isBreak, List.contains_eq_mem, List.mem_cons, List.not_mem_nil, or_false,
        decide_eq_true_eq] at hc
      rcases hc with rfl | rfl | rfl | rfl | rfl | rfl | rfl <;> exact absurd h (by decide)

/-- A character that starts a static member, an address or a quoted constant. -/
def isOpening (c : Char) : Bool := c == '<' || c == '&' || Text.isQuote c

theorem not_isOpening_of_isNumeral {c : Char} (h : isNumeral c = true) : isOpening c = false := by
  cases hc : isOpening c with
  | false => rfl
  | true =>
      simp only [isOpening, Text.isQuote, Bool.or_eq_true, beq_iff_eq] at hc
      rcases hc with (rfl | rfl) | rfl | rfl <;> exact absurd h (by decide)

theorem unbroken_toString (i : Int) : Unbroken (toString i).toList :=
  fun _ hc => not_isBreak_of_isNumeral (isNumeral_of_mem_toString hc)

theorem unbroken_toString_nat (n : Nat) : Unbroken (toString n).toList := unbroken_toString n

theorem toString_leads (i : Int) : ∃ c cs, (toString i).toList = c :: cs ∧ isNumeral c = true := by
  have hne : (toString i).toList ≠ [] := by
    cases i with
    | ofNat n => exact fun h => Nat.toDigits_ne_nil ((toList_toString_nat n).symm.trans h)
    | negSucc n => simp [toString, Int.repr]
  obtain ⟨c, cs, hcs⟩ := List.exists_cons_of_ne_nil hne
  have hmem : c ∈ (toString i).toList := by
    rw [hcs]
    exact List.mem_cons_self ..
  exact ⟨c, cs, hcs, isNumeral_of_mem_toString hmem⟩

/-! ## Words -/

/-- What has a fixed text without a break. -/
def keywords : List ExprForm :=
  [.thisRef, .baseRef, .setterValue, .literal .null, .literal (.boolean true),
    .literal (.boolean false), .literal .dbNull]

def keywordOf? (s : String) : Option ExprForm := keywords.find? fun form => form.text none == s

/-- A name that is neither a keyword nor starts like something else. -/
def isName (s : String) : Bool :=
  decide (Unbroken s.toList) && (keywordOf? s).isNone &&
    s.toList.head?.any fun c => !isNumeral c && c != '$' && !isOpening c

/-- A constant whose text tells its type and has no break. -/
def Literal.isWord : Literal → Bool
  | .null | .boolean _ | .int32 _ | .uint32 _ | .int64 _ | .uint64 _ | .dbNull => true
  | _ => false

def ExprForm.isWord : ExprForm → Bool
  | .thisRef | .baseRef | .setterValue | .temporary _ => true
  | .literal l => l.isWord
  | .identifier name => isName name
  | _ => false

/-- The constant of a value, by the letters behind its digits. -/
def Literal.ofNumber (v : Int) : List Char → Literal
  | ['u'] => .uint32 (.ofNat v.toNat)
  | ['L'] => .int64 (.ofInt v)
  | ['U', 'L'] => .uint64 (.ofNat v.toNat)
  | _ => .int32 (.ofInt v)

/-- Reads a word. -/
def ExprForm.ofWord (s : String) : ExprForm :=
  match keywordOf? s with
  | some form => form
  | none =>
    if s.toList.head? = some '$' then .temporary ⟨Nat.ofDigitChars 10 (s.toList.drop 2) 0⟩
    else if s.toList.head?.any isNumeral then
      .literal (.ofNumber (numberOf (s.toList.takeWhile isNumeral)) (s.toList.dropWhile isNumeral))
    else .identifier s

theorem keywordOf?_eq_none {s : String} {c : Char} (h : s.toList.head? = some c)
    (hc : c ∉ ['t', 'b', 'v', 'n', 'f', 'd']) : keywordOf? s = none := by
  refine List.find?_eq_none.mpr fun form hform heq => ?_
  obtain rfl : form.text none = s := LawfulBEq.eq_of_beq heq
  simp only [keywords, List.mem_cons, List.not_mem_nil, or_false] at hform
  rcases hform with rfl | rfl | rfl | rfl | rfl | rfl | rfl
  all_goals
    obtain rfl := Option.some.inj h
    exact hc (by decide)

theorem ofWord_keyword (form : ExprForm) (h : form ∈ keywords) :
    ExprForm.ofWord (form.text none) = form := by
  simp only [keywords, List.mem_cons, List.not_mem_nil, or_false] at h
  rcases h with rfl | rfl | rfl | rfl | rfl | rfl | rfl <;> rfl

theorem ofWord_temporary (id : LocalId) :
    ExprForm.ofWord ((ExprForm.temporary id).text none) = .temporary id := by
  have hchars : ((ExprForm.temporary id).text none).toList =
      '$' :: 't' :: (toString id.index).toList := by
    simp [ExprForm.text, LocalId.text]
  have hhead : ((ExprForm.temporary id).text none).toList.head? = some '$' := by
    rw [hchars]
    rfl
  unfold ExprForm.ofWord
  rw [keywordOf?_eq_none hhead (by decide)]
  dsimp only
  rw [if_pos hhead, hchars]
  exact congrArg (fun n => ExprForm.temporary ⟨n⟩) (ofDigitChars_toString id.index)

theorem ofWord_number (v : Int) (suffix : String) (h : GoesOn (!isNumeral ·) suffix.toList) :
    ExprForm.ofWord (toString v ++ suffix) = .literal (.ofNumber v suffix.toList) := by
  obtain ⟨c, cs, hcs, hc⟩ := toString_leads v
  have hhead : (toString v ++ suffix).toList.head? = some c := by
    rw [String.toList_append, hcs]
    rfl
  have hkeyword : keywordOf? (toString v ++ suffix) = none := by
    refine keywordOf?_eq_none hhead fun hmem => ?_
    simp only [List.mem_cons, List.not_mem_nil, or_false] at hmem
    rcases hmem with rfl | rfl | rfl | rfl | rfl | rfl <;> exact absurd hc (by decide)
  have hdollar : (toString v ++ suffix).toList.head? ≠ some '$' := by
    rw [hhead]
    rintro ⟨⟩
    exact absurd hc (by decide)
  have hnumeral : (toString v ++ suffix).toList.head?.any isNumeral = true := by
    rw [hhead]
    exact hc
  have hdigits : ∀ c ∈ (toString v).toList, isNumeral c = true :=
    fun _ hc => isNumeral_of_mem_toString hc
  unfold ExprForm.ofWord
  rw [hkeyword]
  dsimp only
  rw [if_neg hdollar, if_pos hnumeral, String.toList_append, takeWhile_append_of_goesOn hdigits h,
    dropWhile_append_of_goesOn hdigits h, numberOf_toString]

theorem ofWord_name {s : String} (h : isName s = true) : ExprForm.ofWord s = .identifier s := by
  simp only [isName, Bool.and_eq_true, decide_eq_true_eq, Option.isNone_iff_eq_none,
    Option.any_eq_true, Bool.not_eq_true', bne_iff_ne] at h
  obtain ⟨⟨-, hkeyword⟩, c, hc, ⟨hnumeral, hdollar⟩, -⟩ := h
  unfold ExprForm.ofWord
  rw [hkeyword]
  dsimp only
  rw [if_neg (by rw [hc]; simpa using hdollar), if_neg (by rw [hc]; simpa using hnumeral)]

theorem Literal.ofWord_text {l : Literal} (h : l.isWord = true) :
    ExprForm.ofWord l.text = .literal l := by
  cases l with
  | null => exact ofWord_keyword (.literal .null) (by simp [keywords])
  | dbNull => exact ofWord_keyword (.literal .dbNull) (by simp [keywords])
  | boolean b => exact ofWord_keyword (.literal (.boolean b)) (by cases b <;> simp [keywords])
  | int32 v =>
      have hread := ofWord_number v.toInt "" (by simp)
      rw [String.append_empty] at hread
      exact hread.trans (congrArg (fun v => ExprForm.literal (.int32 v)) (Int32.ofInt_toInt v))
  | uint32 v =>
      have hread := ofWord_number v.toNat "u" (by simp [isNumeral])
      exact hread.trans (congrArg (fun v => ExprForm.literal (.uint32 v)) UInt32.ofNat_toNat)
  | int64 v =>
      have hread := ofWord_number v.toInt "L" (by simp [isNumeral])
      exact hread.trans (congrArg (fun v => ExprForm.literal (.int64 v)) (Int64.ofInt_toInt v))
  | uint64 v =>
      have hread := ofWord_number v.toNat "UL" (by simp [isNumeral])
      exact hread.trans (congrArg (fun v => ExprForm.literal (.uint64 v)) UInt64.ofNat_toNat)
  | _ => exact Bool.noConfusion h

/-- A word is read back from its text. -/
theorem ofWord_text {form : ExprForm} (h : form.isWord = true) :
    ExprForm.ofWord (form.text none) = form := by
  cases form with
  | thisRef | baseRef | setterValue => exact ofWord_keyword _ (by simp [keywords])
  | temporary id => exact ofWord_temporary id
  | literal l => exact Literal.ofWord_text h
  | identifier name => exact ofWord_name h
  | _ => exact Bool.noConfusion h

/-- The text of a word: it has no break, and does not start like something else. -/
structure WordText (s : String) : Prop where
  unbroken : Unbroken s.toList
  leads : ∃ c cs, s.toList = c :: cs ∧ isOpening c = false

theorem wordText_number (v : Int) (suffix : String) (h : Unbroken suffix.toList) :
    WordText (toString v ++ suffix) := by
  obtain ⟨c, cs, hcs, hc⟩ := toString_leads v
  constructor
  · rw [String.toList_append]
    exact unbroken_append.mpr ⟨unbroken_toString v, h⟩
  · refine ⟨c, cs ++ suffix.toList, ?_, not_isOpening_of_isNumeral hc⟩
    rw [String.toList_append, hcs]
    rfl

theorem Literal.wordText {l : Literal} (h : l.isWord = true) : WordText l.text := by
  cases l with
  | null | dbNull => exact ⟨by decide, _, _, rfl, by decide⟩
  | boolean b => cases b <;> exact ⟨by decide, _, _, rfl, by decide⟩
  | int32 v =>
      have hword := wordText_number v.toInt "" (by decide)
      rwa [String.append_empty] at hword
  | uint32 v => exact wordText_number v.toNat "u" (by decide)
  | int64 v => exact wordText_number v.toInt "L" (by decide)
  | uint64 v => exact wordText_number v.toNat "UL" (by decide)
  | _ => exact Bool.noConfusion h

theorem ExprForm.wordText {form : ExprForm} (h : form.isWord = true) :
    WordText (form.text none) := by
  cases form with
  | thisRef | baseRef | setterValue => exact ⟨by decide, _, _, rfl, by decide⟩
  | temporary id =>
      have hchars : ((ExprForm.temporary id).text none).toList =
          ['$', 't'] ++ (toString id.index).toList := by
        simp [ExprForm.text, LocalId.text]
      constructor
      · rw [hchars]
        exact unbroken_append.mpr ⟨by decide, unbroken_toString_nat _⟩
      · exact ⟨_, _, hchars, by decide⟩
  | literal l => exact Literal.wordText h
  | identifier name =>
      simp only [ExprForm.isWord, isName, Bool.and_eq_true, decide_eq_true_eq, Option.any_eq_true,
        Bool.not_eq_true'] at h
      obtain ⟨⟨hunbroken, -⟩, c, hc, -, hlead⟩ := h
      obtain ⟨cs, hcs⟩ := List.head?_eq_some_iff.mp hc
      exact ⟨hunbroken, c, cs, hcs, hlead⟩
  | _ => exact Bool.noConfusion h

/-! ## Types, members and operators -/

theorem toString_nat_inj {m n : Nat} (h : (toString m).toList = (toString n).toList) : m = n := by
  rw [← ofDigitChars_toString m, h, ofDigitChars_toString]

/-- A number with a mark behind it. -/
theorem toString_split {m n : Nat} {c : Char} {r s : List Char} (hc : c.isDigit = false)
    (h : (toString m).toList ++ c :: r = (toString n).toList ++ c :: s) : m = n ∧ r = s := by
  have hdigits : ∀ k : Nat, ∀ c ∈ (toString k).toList, c.isDigit = true :=
    fun _ _ hc => isDigit_of_mem_toString hc
  obtain ⟨hmn, hrs⟩ := split_unique h (hdigits m) (hdigits n) (by simp [hc]) (by simp [hc])
  exact ⟨toString_nat_inj hmn, (List.cons.inj hrs).2⟩

theorem TypeId.toList_text (id : TypeId) : id.text.toList =
    (toString id.module.index).toList ++ ':' :: (toString id.index.index).toList := by
  simp [TypeId.text, ModuleId.text]

theorem TypeId.text_inj {id id' : TypeId} (h : id.text.toList = id'.text.toList) : id = id' := by
  obtain ⟨⟨m⟩, ⟨t⟩⟩ := id
  obtain ⟨⟨m'⟩, ⟨t'⟩⟩ := id'
  rw [toList_text, toList_text] at h
  obtain ⟨rfl, h⟩ := toString_split (by decide) h
  obtain rfl := toString_nat_inj h
  rfl

theorem MemberRef.toList_text (ref : MemberRef) : ref.text.toList =
    (toString ref.type.module.index).toList ++ ':' :: ((toString ref.type.index.index).toList ++
      '#' :: (toString ref.index).toList) := by
  simp [MemberRef.text, TypeId.toList_text]

theorem MemberRef.text_inj {ref ref' : MemberRef} (h : ref.text.toList = ref'.text.toList) :
    ref = ref' := by
  obtain ⟨⟨⟨m⟩, ⟨t⟩⟩, i⟩ := ref
  obtain ⟨⟨⟨m'⟩, ⟨t'⟩⟩, i'⟩ := ref'
  rw [toList_text, toList_text] at h
  obtain ⟨rfl, h⟩ := toString_split (by decide) h
  obtain ⟨rfl, h⟩ := toString_split (by decide) h
  obtain rfl := toString_nat_inj h
  rfl

/-- A member's text ends before the bracket that closes it. -/
theorem MemberRef.split {ref ref' : MemberRef} {r s : List Char}
    (h : ref.text.toList ++ '>' :: r = ref'.text.toList ++ '>' :: s) : ref = ref' ∧ r = s := by
  have hinside : ∀ ref : MemberRef, ∀ c ∈ ref.text.toList, (c != '>') = true := by
    intro ref c hc
    have hdigit : ∀ n : Nat, '>' ∉ (toString n).toList :=
      fun n hn => absurd (isDigit_of_mem_toString hn) (by decide)
    rw [bne_iff_ne]
    rintro rfl
    rw [MemberRef.toList_text] at hc
    simp only [List.mem_append, List.mem_cons, hdigit, or_false, false_or] at hc
    rcases hc with hc | hc <;> exact absurd hc (by decide)
  obtain ⟨href, hrs⟩ := split_unique h (hinside ref) (hinside ref') (by simp) (by simp)
  exact ⟨MemberRef.text_inj href, (List.cons.inj hrs).2⟩

theorem BinaryOp.ofText?_text (op : BinaryOp) : BinaryOp.ofText? op.text = some op := by
  cases op <;> rfl

/-- An operator's text ends before the blank behind it. -/
theorem BinaryOp.split {op op' : BinaryOp} {r s : List Char}
    (h : op.text.toList ++ ' ' :: r = op'.text.toList ++ ' ' :: s) : op = op' ∧ r = s := by
  have hinside : ∀ op : BinaryOp, ∀ c ∈ op.text.toList, (c != ' ') = true := by
    intro op
    refine List.all_eq_true.mp ?_
    cases op <;> rfl
  obtain ⟨hop, hrs⟩ := split_unique h (hinside op) (hinside op') (by simp) (by simp)
  have hread : some op = some op' := by
    rw [← ofText?_text op, String.toList_inj.mp hop, ofText?_text]
  exact ⟨Option.some.inj hread, (List.cons.inj hrs).2⟩

/-- A type that needs no look-up; its text is a word. -/
def TypeRef.isWord : TypeRef → Bool
  | .primitive _ | .bound _ => true
  | _ => false

theorem TypeRef.wordText {t : TypeRef} (h : t.isWord = true) : WordText t.text := by
  cases t with
  | primitive p => cases p <;> exact ⟨by decide, _, _, rfl, by decide⟩
  | bound id =>
      have hchars : (TypeRef.bound id).text.toList =
          ['t', 'y', 'p', 'e', '#'] ++ id.text.toList := by
        simp [TypeRef.text]
      constructor
      · rw [hchars, TypeId.toList_text]
        refine unbroken_append.mpr ⟨by decide, unbroken_append.mpr ⟨unbroken_toString_nat _, ?_⟩⟩
        exact List.forall_mem_cons.mpr ⟨by decide, unbroken_toString_nat _⟩
      · exact ⟨_, _, hchars, by decide⟩
  | _ => exact Bool.noConfusion h

theorem PrimitiveType.ofText?_text (p : PrimitiveType) :
    PrimitiveType.ofText? p.text = some p := by
  cases p <;> rfl

theorem TypeRef.text_inj_of_isWord {t t' : TypeRef} (ht : t.isWord = true) (ht' : t'.isWord = true)
    (h : t.text = t'.text) : t = t' := by
  have hapart : ∀ (p : PrimitiveType) (id : TypeId), p.text ≠ "type#" ++ id.text := by
    intro p id h
    have hchars : p.text.toList = ['t', 'y', 'p', 'e', '#'] ++ id.text.toList := by
      rw [h, String.toList_append]
      rfl
    have hhash : '#' ∉ p.text.toList := by cases p <;> decide
    exact hhash (by rw [hchars]; simp)
  cases t with
  | primitive p =>
      cases t' with
      | primitive p' =>
          have hread : some p = some p' := by
            rw [← PrimitiveType.ofText?_text p, show p.text = p'.text from h,
              PrimitiveType.ofText?_text]
          rw [Option.some.inj hread]
      | bound id => exact absurd h (hapart p id)
      | _ => exact Bool.noConfusion ht'
  | bound id =>
      cases t' with
      | primitive p => exact absurd h.symm (hapart p id)
      | bound id' =>
          have hid : id.text = id'.text := (String.append_right_inj "type#").mp h
          rw [TypeId.text_inj (congrArg String.toList hid)]
      | _ => exact Bool.noConfusion ht'
  | _ => exact Bool.noConfusion ht

end MiddleEnd
