/-
  Binary search in a list of increasing numbers.
-/

namespace MiddleEnd

/-- How a search ends: at the entry it looks for, or at the place where that would have to be put
    in. -/
inductive Found where
  | hit (index : Nat)
  | miss (index : Nat)
  deriving DecidableEq, Repr

/-- Halves the `size` entries from `base` on until one is left. The entry in the middle stays among
    them if it is not above the number, and else goes, except that an odd one out stays too. -/
def narrow (xs : List Nat) (x base size : Nat) : Nat :=
  if 1 < size then
    let half := size / 2
    narrow xs x (if x < xs.getD (base + half) 0 then base else base + half) (size - half)
  else base
termination_by size

/-- Looks up a number; the last comparison tells a hit from a miss. -/
def binarySearch (xs : List Nat) (x : Nat) : Found :=
  let base := narrow xs x 0 xs.length
  match xs[base]? with
  | none => .miss 0
  | some y => if y = x then .hit base else .miss (if y < x then base + 1 else base)

end MiddleEnd
