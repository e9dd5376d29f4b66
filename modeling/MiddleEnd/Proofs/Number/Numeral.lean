/-
  Numbers as texts. A whole number is read back from its digits and sign (`numberOf_toString`). A
  decimal is written with all digits of its mantissa, filled up with zeros so that one is left in
  front of the point (`Decimal.chars_eq`). Its text is read with the point left out, which gives the
  mantissa, and by counting behind the point, which gives the scale (`Decimal.text_exact`).
-/
import MiddleEnd.Number.Decimal

namespace MiddleEnd

/-! ## Whole numbers -/

theorem toList_toString_nat (n : Nat) : (toString n).toList = Nat.toDigits 10 n := by simp

theorem isDigit_of_mem_toString {n : Nat} {c : Char} (h : c ∈ (toString n).toList) :
    c.isDigit = true := by
  rw [toList_toString_nat] at h
  exact Nat.isDigit_of_mem_toDigits (by decide) (by decide) h

/-- A character of a number, sign included. -/
def isNumeral (c : Char) : Bool := c == '-' || c.isDigit

theorem isNumeral_of_isDigit {c : Char} (h : c.isDigit = true) : isNumeral c = true := by
  rw [isNumeral, h, Bool.or_true]

theorem toList_toString_negSucc (n : Nat) :
    (toString (Int.negSucc n)).toList = '-' :: (toString (n + 1)).toList := by
  simp [toString, Int.repr]

theorem isNumeral_of_mem_toString {i : Int} {c : Char} (h : c ∈ (toString i).toList) :
    isNumeral c = true := by
  cases i with
  | ofNat n => exact isNumeral_of_isDigit (isDigit_of_mem_toString (n := n) h)
  | negSucc n =>
      rw [toList_toString_negSucc, List.mem_cons] at h
      rcases h with rfl | h
      · rfl
      · exact isNumeral_of_isDigit (isDigit_of_mem_toString h)

/-- The number that is written with these characters. -/
def numberOf : List Char → Int
  | '-' :: cs => -(Nat.ofDigitChars 10 cs 0 : Int)
  | cs => Nat.ofDigitChars 10 cs 0

theorem numberOf_digits {cs : List Char} (h : ∀ c ∈ cs, c.isDigit = true) :
    numberOf cs = Nat.ofDigitChars 10 cs 0 := by
  unfold numberOf
  split
  · exact absurd (h '-' List.mem_cons_self) (by decide)
  · rfl

theorem ofDigitChars_toString (n : Nat) : Nat.ofDigitChars 10 (toString n).toList 0 = n := by
  rw [toList_toString_nat]
  exact Nat.ofDigitChars_toDigits (by decide) (by decide)

theorem numberOf_toString (i : Int) : numberOf (toString i).toList = i := by
  cases i with
  | ofNat n =>
      exact (numberOf_digits fun _ => isDigit_of_mem_toString (n := n)).trans
        (congrArg Int.ofNat (ofDigitChars_toString n))
  | negSucc n =>
      rw [toList_toString_negSucc, numberOf, ofDigitChars_toString]
      omega

/-- The first digit of a number is no zero, unless the number is. -/
theorem eq_zero_of_head?_toDigits {n : Nat} (h : (Nat.toDigits 10 n).head? = some '0') : n = 0 := by
  induction n using Nat.strongRecOn with
  | ind n ih =>
      rcases Nat.lt_or_ge n 10 with hlt | hge
      · rw [Nat.toDigits_of_lt_base hlt, List.head?_cons] at h
        exact Nat.digitChar_eq_zero.mp (Option.some.inj h)
      · have hne : Nat.toDigits 10 (n / 10) ≠ [] := Nat.toDigits_ne_nil
        obtain ⟨c, cs, hcs⟩ := List.exists_cons_of_ne_nil hne
        rw [Nat.toDigits_of_base_le (by decide) hge, hcs] at h
        have hzero := ih (n / 10) (by omega) (hcs ▸ h)
        omega

/-! ## Decimals -/

namespace Decimal

theorem length_paddedDigits (width n : Nat) :
    (paddedDigits width n).length = max width (Nat.toDigits 10 n).length := by
  rw [paddedDigits, List.length_append, List.length_replicate]
  omega

theorem isDigit_of_mem_paddedDigits {width n : Nat} {c : Char} (h : c ∈ paddedDigits width n) :
    c.isDigit = true := by
  rcases List.mem_append.mp h with h | h
  · rw [List.eq_of_mem_replicate h]
    rfl
  · exact Nat.isDigit_of_mem_toDigits (by decide) (by decide) h

theorem ofDigitChars_paddedDigits (width n : Nat) :
    Nat.ofDigitChars 10 (paddedDigits width n) 0 = n := by
  rw [paddedDigits, Nat.ofDigitChars_append, Nat.ofDigitChars_replicate_zero, Nat.mul_zero,
    Nat.ofDigitChars_ten_toDigits]

theorem paddedDigits_of_le {width n : Nat} (h : width ≤ (Nat.toDigits 10 n).length) :
    paddedDigits width n = Nat.toDigits 10 n := by
  rw [paddedDigits, Nat.sub_eq_zero_of_le h, List.replicate_zero, List.nil_append]

/-- The digits of a written decimal, in front of the point and behind it. -/
structure Figures where
  whole : List Char
  fraction : List Char
  whole_isDigit : ∀ c ∈ whole, c.isDigit = true
  fraction_isDigit : ∀ c ∈ fraction, c.isDigit = true
  whole_ne_nil : whole ≠ []
  /-- A zero in front stands alone there. -/
  leading : whole.head? = some '0' → whole = ['0']

variable (d : Decimal)

/-- All digits that are written. -/
def digits : List Char := paddedDigits (d.scale.toNat + 1) d.mantissa.toInt.natAbs

/-- How many of them stand in front of the point. -/
def wholeLength : Nat := d.digits.length - d.scale.toNat

theorem scale_lt_length_digits : d.scale.toNat < d.digits.length := by
  rw [digits, length_paddedDigits]
  omega

theorem head?_take_digits (h : (d.digits.take d.wholeLength).head? = some '0') :
    d.digits.take d.wholeLength = ['0'] := by
  have hpos : d.wholeLength ≠ 0 := by
    have hlength := d.scale_lt_length_digits
    rw [wholeLength]
    omega
  rw [List.head?_take, if_neg hpos] at h
  rcases Nat.lt_or_ge d.scale.toNat (Nat.toDigits 10 d.mantissa.toInt.natAbs).length with hlt | hge
  · -- nothing is filled up, so the first digit is that of the mantissa
    have hdigits : d.digits = Nat.toDigits 10 d.mantissa.toInt.natAbs := paddedDigits_of_le hlt
    rw [hdigits] at h ⊢
    rw [eq_zero_of_head?_toDigits h, Nat.toDigits_zero]
    exact List.take_of_length_le (Nat.one_le_iff_ne_zero.mpr hpos)
  · -- a single digit is left in front of the point
    have hone : d.wholeLength = 1 := by
      rw [wholeLength, digits, length_paddedDigits]
      omega
    rw [hone, List.take_one, h]
    rfl

def figures : Figures where
  whole := d.digits.take d.wholeLength
  fraction := d.digits.drop d.wholeLength
  whole_isDigit := fun _ h => isDigit_of_mem_paddedDigits (List.mem_of_mem_take h)
  fraction_isDigit := fun _ h => isDigit_of_mem_paddedDigits (List.mem_of_mem_drop h)
  whole_ne_nil := by
    have hlength := d.scale_lt_length_digits
    rw [Ne, List.take_eq_nil_iff, wholeLength, ← List.length_eq_zero_iff]
    omega
  leading := d.head?_take_digits

theorem length_fraction : d.figures.fraction.length = d.scale.toNat := by
  have hlength := d.scale_lt_length_digits
  show (d.digits.drop d.wholeLength).length = _
  rw [List.length_drop, wholeLength]
  omega

theorem whole_append_fraction : d.figures.whole ++ d.figures.fraction = d.digits :=
  List.take_append_drop _ _

def sign : List Char := if d.mantissa.toInt < 0 then ['-'] else []

/-- The point with what stands behind it, if anything does. -/
def point : List Char := if 0 < d.scale.toNat then '.' :: d.figures.fraction else []

theorem chars_eq : d.chars = d.sign ++ d.figures.whole ++ d.point ++ ['m'] := by
  unfold chars
  dsimp only
  by_cases hscale : d.scale.toNat = 0
  · have hwhole : d.figures.whole = Nat.toDigits 10 d.mantissa.toInt.natAbs := by
      have hfraction : d.figures.fraction = [] :=
        List.eq_nil_of_length_eq_zero (d.length_fraction.trans hscale)
      rw [← List.append_nil d.figures.whole, ← hfraction, whole_append_fraction, digits, hscale]
      exact paddedDigits_of_le Nat.length_toDigits_pos
    have hpoint : d.point = [] := if_neg (Nat.not_lt.mpr (Nat.le_of_eq hscale))
    rw [if_pos hscale, hpoint, hwhole, List.append_nil]
    rfl
  · have hpoint : d.point = '.' :: d.figures.fraction := if_pos (Nat.pos_of_ne_zero hscale)
    rw [if_neg hscale, hpoint, List.append_assoc _ ['.']]
    rfl

/-! ## Reading decimals -/

/-- The digits of a text as one number, with the sign of the text. -/
def readMantissa (text : String) : Int := numberOf (text.toList.filter isNumeral)

/-- How many digits stand behind the point of a text. -/
def readScale (text : String) : Nat := (text.toList.dropWhile (· != '.')).countP Char.isDigit

theorem toList_text : d.text.toList = d.chars := String.toList_ofList

theorem numberOf_sign_append : numberOf (d.sign ++ d.digits) = d.mantissa.toInt := by
  have hdigits : ∀ c ∈ d.digits, c.isDigit = true := fun _ => isDigit_of_mem_paddedDigits
  have hvalue : Nat.ofDigitChars 10 d.digits 0 = d.mantissa.toInt.natAbs :=
    ofDigitChars_paddedDigits _ _
  by_cases hneg : d.mantissa.toInt < 0
  · rw [sign, if_pos hneg, List.singleton_append, numberOf, hvalue]
    omega
  · rw [sign, if_neg hneg, List.nil_append, numberOf_digits hdigits, hvalue]
    omega

theorem readMantissa_text : readMantissa d.text = d.mantissa.toInt := by
  have hdigits : ∀ {cs : List Char}, (∀ c ∈ cs, c.isDigit = true) → cs.filter isNumeral = cs :=
    fun h => List.filter_eq_self.mpr fun c hc => isNumeral_of_isDigit (h c hc)
  have hsign : d.sign.filter isNumeral = d.sign := by
    rw [sign]
    split <;> rfl
  have hpoint : d.point.filter isNumeral = d.figures.fraction := by
    rw [point]
    split
    · rw [List.filter_cons_of_neg (by decide), hdigits d.figures.fraction_isDigit]
    · refine (List.eq_nil_of_length_eq_zero ?_).symm
      rw [length_fraction]
      omega
  have hend : ['m'].filter isNumeral = [] := rfl
  rw [readMantissa, toList_text, chars_eq, List.filter_append, List.filter_append,
    List.filter_append, hsign, hdigits d.figures.whole_isDigit, hpoint, hend, List.append_nil,
    List.append_assoc, whole_append_fraction, numberOf_sign_append]

theorem readScale_text : readScale d.text = d.scale.toNat := by
  have hfront : ∀ c ∈ d.sign ++ d.figures.whole, (c != '.') = true := by
    intro c hc
    rw [bne_iff_ne]
    rintro rfl
    rcases List.mem_append.mp hc with hc | hc
    · rw [sign] at hc
      split at hc <;> simp at hc
    · exact absurd (d.figures.whole_isDigit _ hc) (by decide)
  rw [readScale, toList_text, chars_eq, List.append_assoc, List.dropWhile_append_of_pos hfront,
    point]
  split
  · have hcount : d.figures.fraction.countP Char.isDigit = d.scale.toNat := by
      rw [List.countP_eq_length.mpr d.figures.fraction_isDigit, length_fraction]
    rw [List.cons_append, List.dropWhile_cons_of_neg (by decide),
      List.countP_cons_of_neg (by decide), List.countP_append, hcount]
    rfl
  · show 0 = d.scale.toNat
    omega

theorem text_injective : Function.Injective text := by
  intro d d' h
  have hmantissa : d.mantissa.toInt = d'.mantissa.toInt := by
    rw [← d.readMantissa_text, h, d'.readMantissa_text]
  have hscale : d.scale.toNat = d'.scale.toNat := by
    rw [← d.readScale_text, h, d'.readScale_text]
  obtain ⟨mantissa, scale⟩ := d
  obtain ⟨mantissa', scale'⟩ := d'
  rw [Decimal.mk.injEq]
  exact ⟨Int64.toInt_inj.mp hmantissa, UInt8.toNat_inj.mp hscale⟩

/-- Decimals with the same text are equal. The text is a dash if the mantissa is negative, digits
    without needless zeros in front, a point with `scale` digits behind it unless the scale is zero,
    and an `m`. Its digits as one number, with its sign, are the mantissa, and the digits behind the
    point are as many as the scale says. -/
theorem text_exact :
    Function.Injective text ∧
    ∀ d : Decimal, ∃ f : Figures,
      d.text.toList = (if d.mantissa.toInt < 0 then ['-'] else []) ++ f.whole ++
        (if 0 < d.scale.toNat then '.' :: f.fraction else []) ++ ['m'] ∧
      f.fraction.length = d.scale.toNat ∧
      readMantissa d.text = d.mantissa.toInt ∧ readScale d.text = d.scale.toNat := by
  refine ⟨text_injective, fun d => ⟨d.figures, ?_, d.length_fraction, ?_, ?_⟩⟩
  · exact d.toList_text.trans d.chars_eq
  · exact d.readMantissa_text
  · exact d.readScale_text

/-- The least mantissa there is, with its first digit in the second place behind the point. -/
example : (⟨Int64.minValue, 20⟩ : Decimal).text = "-0.09223372036854775808m" := by decide +kernel

end Decimal

end MiddleEnd
