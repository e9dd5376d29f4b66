/-
  A pool of names.
-/
import MiddleEnd.Text.Escape

namespace MiddleEnd

/-- A name, spelled out as one. -/
def identifierText (name : String) : String := "Identifier(" ++ Text.quoted name ++ ")"

/-- Every name that was handed out, each once, in the order of its first use. -/
structure NamePool where
  names : List String := []
  deriving DecidableEq, Repr

namespace NamePool

/-- The name is in the pool. -/
def contains (p : NamePool) (name : String) : Bool := p.names.contains name

/-- Adds a name, unless it is there. -/
def intern (p : NamePool) (name : String) : NamePool :=
  if p.contains name then p else ⟨p.names ++ [name]⟩

/-- How many names there are. -/
def size (p : NamePool) : Nat := p.names.length

/-- There are no names. -/
def isEmpty (p : NamePool) : Bool := p.names.isEmpty

end NamePool

end MiddleEnd
