/-
  Texts of binary numbers: where positional notation ends, what follows a whole number, how an
  exponent is marked. The digits themselves are the shortest ones.
-/
import MiddleEnd.Number.Shortest

namespace MiddleEnd

/-- The decisions of a number format. -/
structure FloatLayout where
  /-- The powers of ten of the leading digit that are written positionally; without bounds all
      are. -/
  positional : Option (Int × Int)
  /-- Whether a whole number keeps a final `.0`. -/
  keepsPoint : Bool
  /-- Whether a positive exponent carries its sign. -/
  signsExponent : Bool
  tie : Tie

namespace FloatLayout

/-- Literals of double precision, and both precisions where a literal is spelled out in full. -/
def literal : FloatLayout := ⟨some (-4, 16), true, false, .up⟩

/-- Literals of single precision before their suffix. -/
def suffixed : FloatLayout := ⟨none, false, false, .up⟩

/-- How numbers of 64 bits are written in JSON. -/
def jsonDouble : FloatLayout := ⟨some (-5, 16), true, true, .even⟩

/-- How numbers of 32 bits are written in JSON. -/
def jsonSingle : FloatLayout := ⟨some (-6, 13), true, true, .even⟩

/-- A number of zeros. -/
def zeros (n : Nat) : List Char := List.replicate n '0'

/-- Digits with the point after the one of power `0`; `power` belongs to the first of them. -/
def positionalText (layout : FloatLayout) (ds : List Char) (power : Int) : List Char :=
  match power with
  | .negSucc k => '0' :: '.' :: zeros k ++ ds
  | .ofNat k =>
    if ds.length ≤ k + 1 then
      ds ++ zeros (k + 1 - ds.length) ++ (if layout.keepsPoint then ['.', '0'] else [])
    else ds.take (k + 1) ++ '.' :: ds.drop (k + 1)

/-- Digits with a point behind the first of them and a power of ten. -/
def exponentText (layout : FloatLayout) (ds : List Char) (power : Int) : List Char :=
  let mantissa := match ds with
    | [] => []
    | [d] => [d]
    | d :: rest => d :: '.' :: rest
  let sign := if power < 0 then ['-'] else if layout.signsExponent then ['+'] else []
  mantissa ++ 'e' :: sign ++ Nat.toDigits 10 power.natAbs

/-- Digits in the way that suits their power of ten. -/
def digitsText (layout : FloatLayout) (d : DecimalDigits) : List Char :=
  let ds := Nat.toDigits 10 d.digits
  let power := d.exponent + ds.length - 1
  match layout.positional with
  | none => layout.positionalText ds power
  | some (least, limit) =>
    if least ≤ power ∧ power < limit then layout.positionalText ds power
    else layout.exponentText ds power

/-- The text of a number in the layout. -/
def text {f : BinaryFormat} (layout : FloatLayout) : Binary f → String
  | .nan => "NaN"
  | .infinite negative => if negative then "-inf" else "inf"
  | .finite negative 0 _ =>
    (if negative then "-0" else "0") ++ (if layout.keepsPoint then ".0" else "")
  | .finite negative c e =>
    let body := layout.digitsText (Shortest.digits f layout.tie c e)
    String.ofList (if negative then '-' :: body else body)

end FloatLayout

end MiddleEnd
