/-
  Binary floating-point numbers as exact data: a sign, a whole coefficient and a power of two.
  Rounding to nearest is one function on ratios; conversion, product and quotient go through it.
-/

namespace MiddleEnd

/-- A binary format: coefficients below `2 ^ precision`, and the exponents of the unit in the last
    place run from `minExponent` to `maxExponent`. -/
structure BinaryFormat where
  precision : Nat
  minExponent : Int
  maxExponent : Int
  deriving DecidableEq, Repr

namespace BinaryFormat

/-- Numbers of 32 bits. -/
def single : BinaryFormat := ⟨24, -149, 104⟩

/-- Numbers of 64 bits. -/
def double : BinaryFormat := ⟨53, -1074, 971⟩

end BinaryFormat

/-- A number of the format. `finite s c e` is `±c · 2 ^ e`, with `c` filling the precision unless
    `e` is the least exponent. -/
inductive Binary (format : BinaryFormat) where
  | finite (negative : Bool) (coefficient : Nat) (exponent : Int)
  | infinite (negative : Bool)
  | nan
  deriving DecidableEq, Repr

/-- Floating-point numbers of 32 bits. -/
abbrev Single := Binary .single

/-- Floating-point numbers of 64 bits. -/
abbrev Double := Binary .double

namespace Binary

variable {f g : BinaryFormat}

/-- A zero with a sign. -/
def zero (negative : Bool) : Binary f := .finite negative 0 f.minExponent

/-- Neither infinite nor no number. -/
def isFinite : Binary f → Bool
  | .finite .. => true
  | _ => false

/-- Zero of either sign. -/
def isZero : Binary f → Bool
  | .finite _ 0 _ => true
  | _ => false

/-- The sign is set. -/
def isNegative : Binary f → Bool
  | .finite s _ _ => s
  | .infinite s => s
  | .nan => false

/-- The whole number nearest to `num / den`; a half goes to the even neighbour. -/
def roundEven (num den : Nat) : Nat :=
  let q := num / den
  let twice := 2 * (num % den)
  if twice < den then q
  else if den < twice then q + 1
  else if q % 2 = 0 then q else q + 1

/-- `num / den` divided by `2 ^ e`, as numerator and denominator. -/
def scaled (num den : Nat) (e : Int) : Nat × Nat :=
  match e with
  | .ofNat k => (num, den * Nat.pow 2 k)
  | .negSucc k => (num * Nat.pow 2 (k + 1), den)

/-- The exponent at which `num / den` fills the precision, or the least exponent if that is
    larger. -/
def exponentFor (f : BinaryFormat) (num den : Nat) : Int :=
  let guess : Int := (num.log2 : Int) - (den.log2 : Int) - (f.precision : Int)
  let (n, d) := scaled num den guess
  let exact := if n / d < Nat.pow 2 f.precision then guess else guess + 1
  max exact f.minExponent

/-- The number of the format nearest to `± num / den`, a half going to the even coefficient. -/
def ofRatio (f : BinaryFormat) (negative : Bool) (num den : Nat) : Binary f :=
  if num = 0 then zero negative
  else
    let e := exponentFor f num den
    let (n, d) := scaled num den e
    let c := roundEven n d
    let (c, e) := if c = Nat.pow 2 f.precision then (Nat.pow 2 (f.precision - 1), e + 1) else (c, e)
    if f.maxExponent < e then .infinite negative else .finite negative c e

/-- The number nearest to a natural number. -/
def ofNat (f : BinaryFormat) (n : Nat) : Binary f := ofRatio f false n 1

/-- The number nearest to a whole number. -/
def ofInt (f : BinaryFormat) (i : Int) : Binary f := ofRatio f (decide (i < 0)) i.natAbs 1

/-- The magnitude of `c · 2 ^ e` as a ratio. -/
def ratio (c : Nat) (e : Int) : Nat × Nat := scaled c 1 (-e)

/-- The same value in another format, rounded to nearest. -/
def convert (g : BinaryFormat) : Binary f → Binary g
  | .finite s c e =>
    let (num, den) := ratio c e
    ofRatio g s num den
  | .infinite s => .infinite s
  | .nan => .nan

/-- The number with the other sign. -/
def neg : Binary f → Binary f
  | .finite s c e => .finite (!s) c e
  | .infinite s => .infinite (!s)
  | .nan => .nan

/-- The nearest number to the product; only finite factors are of use here. -/
def mul : Binary f → Binary f → Binary f
  | .finite s c e, .finite t d k =>
    let (num, den) := ratio (c * d) (e + k)
    ofRatio f (s != t) num den
  | .infinite s, .finite t _ _ => .infinite (s != t)
  | .finite s _ _, .infinite t => .infinite (s != t)
  | .infinite s, .infinite t => .infinite (s != t)
  | _, _ => .nan

/-- The nearest number to the quotient of two finite numbers, the divisor being other than zero. -/
def div : Binary f → Binary f → Binary f
  | .finite s c e, .finite t d k =>
    if d = 0 then .nan
    else
      let (n₁, d₁) := ratio c e
      let (n₂, d₂) := ratio d k
      ofRatio f (s != t) (n₁ * d₂) (d₁ * n₂)
  | .infinite s, .finite t _ _ => .infinite (s != t)
  | .finite s _ _, .infinite t => zero (s != t)
  | _, _ => .nan

/-- The nearest number to `± digits · 10 ^ exponent`. Exponents far outside the range of the format
    are settled without computing the power. -/
def ofDecimal (f : BinaryFormat) (negative : Bool) (digits : Nat) (exponent : Int) : Binary f :=
  if digits = 0 then zero negative
  else if 400 < exponent then .infinite negative
  else if exponent + (Nat.toDigits 10 digits).length < -400 then zero negative
  else
    match exponent with
    | .ofNat k => ofRatio f negative (digits * Nat.pow 10 k) 1
    | .negSucc k => ofRatio f negative digits (Nat.pow 10 (k + 1))

end Binary

end MiddleEnd
