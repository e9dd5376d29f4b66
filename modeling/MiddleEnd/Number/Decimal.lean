/-
  Fixed-point decimals and their text.
-/

namespace MiddleEnd

/-- The value `mantissa / 10 ^ scale`. -/
structure Decimal where
  mantissa : Int64
  scale : UInt8
  deriving DecidableEq, Repr

namespace Decimal

/-- The digits of a magnitude, with zeros in front up to the given width. -/
def paddedDigits (width n : Nat) : List Char :=
  let digits := Nat.toDigits 10 n
  List.replicate (width - digits.length) '0' ++ digits

/-- All of the mantissa's digits, with exactly `scale` of them behind the point. -/
def chars (d : Decimal) : List Char :=
  let magnitude := d.mantissa.toInt.natAbs
  let scale := d.scale.toNat
  let sign := if d.mantissa.toInt < 0 then ['-'] else []
  if scale = 0 then
    sign ++ Nat.toDigits 10 magnitude ++ ['m']
  else
    let digits := paddedDigits (scale + 1) magnitude
    let whole := digits.length - scale
    sign ++ digits.take whole ++ ['.'] ++ digits.drop whole ++ ['m']

/-- A decimal number as it is shown. -/
def text (d : Decimal) : String := String.ofList d.chars

end Decimal

end MiddleEnd
