/-
  Reading the text of a binary number, correctly rounded.
-/
import MiddleEnd.Number.Binary

namespace MiddleEnd

namespace FloatRead

/-- A decimal digit. -/
def isDigit (c : Char) : Bool := decide ('0' ≤ c) && decide (c ≤ '9')

/-- The number that decimal digits make up. -/
def natOf (digits : List Char) : Nat := digits.foldl (fun n c => n * 10 + (c.toNat - 48)) 0

/-- A sign, if there is one, and what follows it. -/
def sign : List Char → Bool × List Char
  | '-' :: cs => (true, cs)
  | '+' :: cs => (false, cs)
  | cs => (false, cs)

/-- The digits behind a point, if there is one. -/
def fraction : List Char → List Char × List Char
  | '.' :: cs => (cs.takeWhile isDigit, cs.dropWhile isDigit)
  | cs => ([], cs)

/-- An exponent up to the end of the text. -/
def exponent? : List Char → Option Int
  | [] => some 0
  | c :: cs =>
    if c = 'e' || c = 'E' then
      let (negative, digits) := sign cs
      if digits.isEmpty || !digits.all isDigit then none
      else some (if negative then -(natOf digits : Int) else natOf digits)
    else none

/-- A number without its sign. -/
def magnitude? (f : BinaryFormat) (negative : Bool) (cs : List Char) : Option (Binary f) :=
  let whole := cs.takeWhile isDigit
  let (behind, rest) := fraction (cs.dropWhile isDigit)
  if whole.isEmpty && behind.isEmpty then none
  else (exponent? rest).map fun e =>
    Binary.ofDecimal f negative (natOf (whole ++ behind)) (e - behind.length)

end FloatRead

open FloatRead in
/-- A decimal number with an optional point and exponent, or the name of a value that is not finite
    in any case. -/
def Binary.ofText? (f : BinaryFormat) (text : String) : Option (Binary f) :=
  let (negative, cs) := sign text.toList
  let name := String.ofList (cs.map Char.toLower)
  if name = "inf" || name = "infinity" then some (.infinite negative)
  else if name = "nan" then some .nan
  else magnitude? f negative cs

end MiddleEnd
