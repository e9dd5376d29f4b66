/-
  The fewest decimal digits that read back as a given binary number. For one, two, ... digits the
  two neighbours of the value on that decimal grid are tested in whole-number arithmetic; the
  first grid with a hit wins, of two hits the nearer.
-/
import MiddleEnd.Number.Binary

namespace MiddleEnd

/-- The value `digits · 10 ^ exponent`. -/
structure DecimalDigits where
  digits : Nat
  exponent : Int
  deriving DecidableEq, Repr

/-- Which of two equally near candidates is taken. -/
inductive Tie where
  | up
  | even
  deriving DecidableEq, Repr

namespace Shortest

/-- A positive value `c · 2 ^ e` of a format with the interval of reals that round to it, in
    quarters of `2 ^ e`, and the factors that put all of them over one denominator. -/
structure Span where
  low : Nat
  value : Nat
  high : Nat
  /-- Whether the ends of the interval round to the value. -/
  closed : Bool
  num : Nat
  den : Nat

/-- Below the least coefficient of a binade the numbers lie twice as dense. -/
def span (f : BinaryFormat) (c : Nat) (e : Int) : Span :=
  let gap := if c = Nat.pow 2 (f.precision - 1) ∧ f.minExponent < e then 1 else 2
  let (num, den) := Binary.ratio 1 (e - 2)
  { low := 4 * c - gap, value := 4 * c, high := 4 * c + 2, closed := c % 2 = 0, num, den }

/-- How many decimal digits a number has; zero has none. -/
def digitCount (n : Nat) : Nat := if n = 0 then 0 else (Nat.toDigits 10 n).length

/-- The `k` with `10 ^ (k - 1) ≤ num / den < 10 ^ k`, for a positive ratio. -/
def magnitude (num den : Nat) : Int :=
  if den ≤ num then digitCount (num / den)
  else 1 - (digitCount ((den + num - 1) / num - 1) : Int)

/-- Whether `a` lies in the interval between `low` and `high`. -/
def within (closed : Bool) (low a high : Nat) : Bool :=
  if closed then decide (low ≤ a) && decide (a ≤ high)
  else decide (low < a) && decide (a < high)

/-- The multiple of `10 ^ t` that stands for the value, if one of its two neighbours on that grid
    lies in the interval. -/
def onGrid (tie : Tie) (s : Span) (t : Int) : Option Nat :=
  let (unit, factor) := match t with
    | .ofNat k => (Nat.pow 10 k * s.den, 1)
    | .negSucc k => (s.den, Nat.pow 10 (k + 1))
  let at' := fun x => x * s.num * factor
  let v := at' s.value
  let c := v / unit
  let below := within s.closed (at' s.low) (c * unit) (at' s.high)
  let above := within s.closed (at' s.low) ((c + 1) * unit) (at' s.high)
  match below, above with
  | true, true =>
    let twice := 2 * (v % unit)
    if twice < unit then some c
    else if unit < twice then some (c + 1)
    else match tie with
      | .up => some (c + 1)
      | .even => some (if c % 2 = 0 then c else c + 1)
  | true, false => some c
  | false, true => some (c + 1)
  | false, false => none

/-- The first grid with a hit, from `k` digits on. -/
def search (tie : Tie) (s : Span) (top : Int) : (tries k : Nat) → DecimalDigits
  | 0, k =>
    let t := top - k
    ⟨(onGrid tie s t).getD 0, t⟩
  | tries + 1, k =>
    let t := top - k
    match onGrid tie s t with
    | some c => ⟨c, t⟩
    | none => search tie s top tries (k + 1)

/-- No trailing zeros, so that the digits are as few as possible. -/
def strip : (limit : Nat) → DecimalDigits → DecimalDigits
  | 0, d => d
  | limit + 1, d =>
    if d.digits ≠ 0 ∧ d.digits % 10 = 0 then strip limit ⟨d.digits / 10, d.exponent + 1⟩ else d

/-- The fewest digits that read back as `c · 2 ^ e`, for a positive `c`. -/
def digits (f : BinaryFormat) (tie : Tie) (c : Nat) (e : Int) : DecimalDigits :=
  let s := span f c e
  let top := magnitude (s.value * s.num) s.den
  strip 20 (search tie s top 17 1)

end Shortest

end MiddleEnd
