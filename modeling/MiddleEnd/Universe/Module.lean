/-
  Declared types and the modules that hold them. A module keeps all of its types in one table,
  nested ones included.
-/
import MiddleEnd.Universe.Member

namespace MiddleEnd

/-- How instances of a type are guarded: the method that returns the guard and the field that holds
    it. -/
structure Contract where
  getter : Option MemberRef := none
  field : Option MemberRef := none
  deriving DecidableEq, Repr

/-- The kinds of types. -/
inductive TypeKind where
  | classType
  | structType
  | interfaceType
  | enumType (underlying : TypeRef)
  | delegateType (parameters : List Parameter) (returnType : TypeRef)

/-- The word for a kind of types. -/
def TypeKind.text : TypeKind → String
  | .classType => "class"
  | .structType => "struct"
  | .interfaceType => "interface"
  | .enumType _ => "enum"
  | .delegateType _ _ => "delegate"

/-- A type with its members. -/
structure TypeNode where
  kind : TypeKind
  name : String
  namespaceName : String := ""
  declaringModule : ModuleId
  /-- The type that this one is nested in. -/
  declaringType : Option TypeId := none
  flags : TypeFlags := {}
  interfaces : List TypeRef := []
  members : List Member := []
  attributes : List Attribute := []
  contract : Option Contract := none
  source : Option SourceContext := none

namespace TypeNode

/-- The type is an interface. -/
def isInterface (t : TypeNode) : Bool :=
  match t.kind with
  | .interfaceType => true
  | _ => false

/-- The type is a struct or an enumeration. -/
def isValueType (t : TypeNode) : Bool :=
  match t.kind with
  | .structType => true
  | .enumType _ => true
  | _ => false

/-- The name behind its namespace. -/
def fullName (t : TypeNode) : String :=
  if t.namespaceName = "" then t.name else t.namespaceName ++ "." ++ t.name

/-- The constructors of a type, in the order of its members. -/
def constructors (t : TypeNode) : List Method :=
  (t.members.filterMap Member.method?).filter Method.isConstructor

/-- The position of the first member of that name. -/
def memberIndex? (t : TypeNode) (name : String) : Option Nat :=
  t.members.findIdx? fun m => m.name == name

/-- The position of the first method of that name. -/
def methodIndex? (t : TypeNode) (name : String) : Option Nat :=
  t.members.findIdx? fun m => m.name == name && m.method?.isSome

end TypeNode

/-- An assembly that has been found. The key names it, however it was asked for. -/
structure AssemblyReference where
  name : String
  key : String
  deriving DecidableEq, Repr

/-- A module with its types. -/
structure Module where
  id : ModuleId
  name : String
  types : Arena TypeIndex TypeNode := {}
  /-- The types that are not nested in another, in the order of their declarations. -/
  topLevel : List TypeId := []
  references : List AssemblyReference := []
  attributes : List Attribute := []

namespace Module

/-- Adds a type; one that is not nested is also listed. -/
def addType (m : Module) (node : TypeNode) : Module × TypeId :=
  let (types, index) := m.types.push node
  let id : TypeId := ⟨m.id, index⟩
  let topLevel := if node.declaringType.isNone then m.topLevel ++ [id] else m.topLevel
  ({ m with types, topLevel }, id)

/-- The type of an id, if it is one of this module. -/
def type? (m : Module) (id : TypeId) : Option TypeNode :=
  if id.module = m.id then m.types.get? id.index else none

/-- Changes a type, if it is one of this module. -/
def modifyType (m : Module) (id : TypeId) (f : TypeNode → TypeNode) : Module :=
  if id.module = m.id then { m with types := m.types.modify id.index f } else m

/-- The module refers to the assembly of a key. -/
def hasReference (m : Module) (key : String) : Bool := m.references.any fun r => r.key == key

/-- The first type of that namespace and name that is not nested. -/
def findType? (m : Module) (ns name : String) : Option TypeId :=
  (m.types.enumerate.find? fun (_, t) =>
    t.declaringType.isNone && t.namespaceName == ns && t.name == name).map fun (i, _) => ⟨m.id, i⟩

end Module

end MiddleEnd
