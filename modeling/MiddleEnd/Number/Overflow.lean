/-
  Sums of bounded width.
-/

namespace MiddleEnd

/-- A sum that does not fit the width it is computed in. -/
inductive Overflow where
  | addition
  deriving DecidableEq, Repr

/-- The message of an overflow. -/
def Overflow.message : Overflow → String
  | .addition => "attempt to add with overflow"

/-- The sum of two numbers, if it stays below a limit. -/
def sumBelow (limit a b : Nat) : Except Overflow Nat :=
  if a + b < limit then .ok (a + b) else .error .addition

end MiddleEnd
