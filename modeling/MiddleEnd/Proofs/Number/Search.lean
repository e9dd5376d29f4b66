/-
  What binary search finds. The entries that are left are such that all behind them are above the
  number and the first of them is not, unless it is the first of all (`Window`). Halving keeps this
  (`Window.halve`), so it holds of the one entry that is left at the end (`Window.narrow`). On
  increasing entries a hit is the index of the number (`binarySearch_eq_hit_iff`), and a miss is the
  index in front of which the entries are below the number, all others being above it
  (`binarySearch_eq_miss_iff`).
-/
import MiddleEnd.Number.Search
import Mathlib.Data.List.Basic

namespace MiddleEnd

/-- What a search for `x` knows of the `size` entries from `base` on. -/
structure Window (xs : List Nat) (x base size : Nat) : Prop where
  inside : base + size ≤ xs.length
  nonempty : 0 < size
  first : base = 0 ∨ ∃ y, xs[base]? = some y ∧ y ≤ x
  behind : ∀ j y, base + size ≤ j → xs[j]? = some y → x < y

/-- The place of a number between the entries below it and those above. -/
def Gap (xs : List Nat) (x i : Nat) : Prop :=
  i ≤ xs.length ∧ ∀ j y, xs[j]? = some y → if j < i then y < x else x < y

variable {xs : List Nat} {x : Nat}

theorem lt_of_sorted (hxs : xs.Pairwise (· < ·)) {i j y z : Nat} (hi : xs[i]? = some y)
    (hj : xs[j]? = some z) (hij : i < j) : y < z := by
  obtain ⟨hi', rfl⟩ := List.getElem?_eq_some_iff.mp hi
  obtain ⟨hj', rfl⟩ := List.getElem?_eq_some_iff.mp hj
  exact List.pairwise_iff_getElem.mp hxs i j hi' hj' hij

theorem le_of_sorted (hxs : xs.Pairwise (· < ·)) {i j y z : Nat} (hi : xs[i]? = some y)
    (hj : xs[j]? = some z) (hij : i ≤ j) : y ≤ z := by
  rcases Nat.lt_or_eq_of_le hij with hlt | rfl
  · exact Nat.le_of_lt (lt_of_sorted hxs hi hj hlt)
  · exact Nat.le_of_eq (Option.some.inj (hi.symm.trans hj))

theorem Window.all (hxs : xs ≠ []) : Window xs x 0 xs.length where
  inside := Nat.le_of_eq (Nat.zero_add _)
  nonempty := List.length_pos_iff.mpr hxs
  first := .inl rfl
  behind j y hj h := by
    have hlt := (List.getElem?_eq_some_iff.mp h).1
    omega

theorem Window.halve (hxs : xs.Pairwise (· < ·)) {base size : Nat} (h : Window xs x base size)
    (hsize : 1 < size) :
    Window xs x (if x < xs.getD (base + size / 2) 0 then base else base + size / 2)
      (size - size / 2) := by
  have hinside := h.inside
  have hmid : base + size / 2 < xs.length := by omega
  have hentry : xs[base + size / 2]? = some xs[base + size / 2] := List.getElem?_eq_getElem hmid
  rw [List.getD_eq_getElem?_getD, hentry, Option.getD_some]
  by_cases habove : x < xs[base + size / 2]
  · rw [if_pos habove]
    refine ⟨by omega, by omega, h.first, ?_⟩
    intro j y hj hy
    -- the middle is above, and the entries left end at it or in front of it
    have hle := le_of_sorted hxs hentry hy (by omega)
    omega
  · rw [if_neg habove]
    refine ⟨by omega, by omega, .inr ⟨_, hentry, Nat.not_lt.mp habove⟩, ?_⟩
    intro j y hj hy
    exact h.behind j y (by omega) hy

theorem Window.narrow (hxs : xs.Pairwise (· < ·)) {base size : Nat} (h : Window xs x base size) :
    Window xs x (narrow xs x base size) 1 := by
  fun_induction MiddleEnd.narrow xs x base size with
  | case1 base size hsize half ih => exact ih (h.halve hxs hsize)
  | case2 base size hsize =>
      have hone : size = 1 := by
        have hpos := h.nonempty
        omega
      exact hone ▸ h

theorem Gap.unique {i j : Nat} (hi : Gap xs x i) (hj : Gap xs x j) : i = j := by
  -- an entry between two gaps would be both above and below
  have hle : ∀ {i j : Nat}, Gap xs x i → Gap xs x j → i ≤ j := by
    intro i j hi hj
    by_contra hlt
    have hlength : j < xs.length := Nat.lt_of_lt_of_le (Nat.lt_of_not_le hlt) hi.1
    have hentry : xs[j]? = some xs[j] := List.getElem?_eq_getElem hlength
    have hbelow := hi.2 j _ hentry
    have habove := hj.2 j _ hentry
    rw [if_pos (by omega)] at hbelow
    rw [if_neg (by omega)] at habove
    omega
  exact Nat.le_antisymm (hle hi hj) (hle hj hi)

theorem getElem?_of_binarySearch_eq_hit {i : Nat} (h : binarySearch xs x = .hit i) :
    xs[i]? = some x := by
  unfold binarySearch at h
  dsimp only at h
  split at h
  · contradiction
  · next y hy =>
      split at h
      · next heq =>
          obtain rfl : narrow xs x 0 xs.length = i := Found.hit.inj h
          exact heq ▸ hy
      · contradiction

theorem gap_of_binarySearch_eq_miss (hxs : xs.Pairwise (· < ·)) {i : Nat}
    (h : binarySearch xs x = .miss i) : Gap xs x i := by
  rcases eq_or_ne xs [] with rfl | hne
  · obtain rfl : 0 = i := Found.miss.inj h
    exact ⟨Nat.le_refl 0, fun j y hy => by cases hy⟩
  have hwindow : Window xs x (narrow xs x 0 xs.length) 1 := (Window.all hne).narrow hxs
  obtain ⟨hinside, -, hfirst, hbehind⟩ := hwindow
  unfold binarySearch at h
  dsimp only at h
  generalize narrow xs x 0 xs.length = base at h hinside hfirst hbehind
  have hentry : xs[base]? = some xs[base] := List.getElem?_eq_getElem (by omega)
  rw [hentry] at h
  dsimp only at h
  by_cases heq : xs[base] = x
  · rw [if_pos heq] at h
    contradiction
  rw [if_neg heq] at h
  obtain rfl := Found.miss.inj h
  by_cases hbelow : xs[base] < x
  · rw [if_pos hbelow]
    refine ⟨hinside, fun j y hy => ?_⟩
    by_cases hj : j < base + 1
    · rw [if_pos hj]
      exact Nat.lt_of_le_of_lt (le_of_sorted hxs hy hentry (by omega)) hbelow
    · rw [if_neg hj]
      exact hbehind j y (by omega) hy
  · -- only the first entry of all can be above
    rw [if_neg hbelow]
    have hzero : base = 0 := by
      rcases hfirst with hzero | ⟨y, hy, hle⟩
      · exact hzero
      · obtain rfl := Option.some.inj (hentry.symm.trans hy)
        omega
    refine ⟨by omega, fun j y hy => ?_⟩
    rw [if_neg (by omega)]
    have hle := le_of_sorted hxs hentry hy (by omega)
    omega

theorem binarySearch_eq_miss_iff (hxs : xs.Pairwise (· < ·)) {i : Nat} :
    binarySearch xs x = .miss i ↔ Gap xs x i := by
  refine ⟨gap_of_binarySearch_eq_miss hxs, fun h => ?_⟩
  cases hs : binarySearch xs x with
  | hit k =>
      have hentry := getElem?_of_binarySearch_eq_hit hs
      have hapart := h.2 k x hentry
      split at hapart <;> omega
  | miss k => rw [(gap_of_binarySearch_eq_miss hxs hs).unique h]

theorem binarySearch_eq_hit_iff (hxs : xs.Pairwise (· < ·)) {i : Nat} :
    binarySearch xs x = .hit i ↔ xs[i]? = some x := by
  refine ⟨getElem?_of_binarySearch_eq_hit, fun h => ?_⟩
  cases hs : binarySearch xs x with
  | hit k =>
      have hentry := getElem?_of_binarySearch_eq_hit hs
      rcases Nat.lt_trichotomy i k with hlt | rfl | hgt
      · exact absurd (lt_of_sorted hxs h hentry hlt) (Nat.lt_irrefl x)
      · rfl
      · exact absurd (lt_of_sorted hxs hentry h hgt) (Nat.lt_irrefl x)
  | miss k =>
      have hapart := (gap_of_binarySearch_eq_miss hxs hs).2 i x h
      split at hapart <;> omega

end MiddleEnd
