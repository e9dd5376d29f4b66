/-
  Tables whose entries are addressed by an index type of their own, so that positions in different
  tables cannot be mixed up. Indices have 32 bits.
-/
import MiddleEnd.Number.Overflow

namespace MiddleEnd

/-- A type of positions. -/
class Index (ι : Type) where
  ofNat : Nat → ι
  toNat : ι → Nat

/-- Positions wrap around at 32 bits. -/
def Index.wrap (n : Nat) : Nat := n % UInt32.size

/-- The position `amount` further on, counted in 64 bits. -/
def Index.plus {ι : Type} [Index ι] (i : ι) (amount : Nat) : Except Overflow ι := do
  return Index.ofNat (← sumBelow UInt64.size (Index.toNat i) amount)

/-- An access behind the last entry. -/
structure OutOfBounds where
  size : Nat
  index : Nat
  deriving DecidableEq, Repr

/-- The message of an access out of bounds. -/
def OutOfBounds.message (e : OutOfBounds) : String :=
  "index out of bounds: the len is " ++ toString e.size ++ " but the index is " ++ toString e.index

/-- Values under indices that are given out one after the other. -/
structure Arena (ι : Type) (α : Type) where
  items : Array α := #[]
  deriving DecidableEq, Repr

namespace Arena

variable {ι α : Type} [Index ι]

/-- How many values there are. -/
def size (a : Arena ι α) : Nat := a.items.size

/-- There are no values. -/
def isEmpty (a : Arena ι α) : Bool := a.items.isEmpty

/-- The position that the next entry gets. -/
def nextIndex (a : Arena ι α) : ι := Index.ofNat a.size

/-- Adds an entry at the next position. -/
def push (a : Arena ι α) (x : α) : Arena ι α × ι := (⟨a.items.push x⟩, a.nextIndex)

/-- The value under an index. -/
def get? (a : Arena ι α) (i : ι) : Option α := a.items[Index.toNat i]?

/-- The entry at a position that should be there. -/
def get (a : Arena ι α) (i : ι) : Except OutOfBounds α :=
  match a.get? i with
  | some x => .ok x
  | none => .error ⟨a.size, Index.toNat i⟩

/-- Replaces the entry at a position, if there is one. -/
def modify (a : Arena ι α) (i : ι) (f : α → α) : Arena ι α :=
  ⟨a.items.modify (Index.toNat i) f⟩

/-- The values changed one by one. -/
def map (f : α → β) (a : Arena ι α) : Arena ι β := ⟨a.items.map f⟩

/-- The values in the order of their indices. -/
def toList (a : Arena ι α) : List α := a.items.toList

/-- The indices that have been given out. -/
def indices (a : Arena ι α) : List ι := (List.range a.size).map Index.ofNat

/-- Every entry with its position. -/
def enumerate (a : Arena ι α) : List (ι × α) :=
  a.toList.zipIdx.map fun (x, i) => (Index.ofNat i, x)

end Arena

end MiddleEnd
