/-
  Names of modules, types, members and temporaries by their position.
-/
import MiddleEnd.Universe.Arena

namespace MiddleEnd

/-- The position of a module in the universe. -/
structure ModuleId where
  index : Nat
  deriving DecidableEq, Repr

instance : Index ModuleId := ⟨fun n => ⟨Index.wrap n⟩, ModuleId.index⟩

/-- An id of a module as it is shown. -/
def ModuleId.text (m : ModuleId) : String := toString m.index

/-- The position of a type in its module. -/
structure TypeIndex where
  index : Nat
  deriving DecidableEq, Repr

instance : Index TypeIndex := ⟨fun n => ⟨Index.wrap n⟩, TypeIndex.index⟩

/-- A type, by its module and its position there. -/
structure TypeId where
  module : ModuleId
  index : TypeIndex
  deriving DecidableEq, Repr

/-- An id of a type as it is shown. -/
def TypeId.text (t : TypeId) : String := t.module.text ++ ":" ++ toString t.index.index

/-- A member by the type that holds it and its position there. -/
structure MemberRef where
  type : TypeId
  index : Nat
  deriving DecidableEq, Repr

/-- A reference to a member as it is shown. -/
def MemberRef.text (m : MemberRef) : String := m.type.text ++ "#" ++ toString m.index

/-- A temporary, numbered within a method body. -/
structure LocalId where
  index : Nat
  deriving DecidableEq, Repr

instance : Index LocalId := ⟨fun n => ⟨Index.wrap n⟩, LocalId.index⟩

/-- A temporary as it is shown. -/
def LocalId.text (l : LocalId) : String := toString l.index

end MiddleEnd
