/-
  Guard contracts: the field of a type that holds its guard, and the method that hands it out.
-/
import MiddleEnd.Pass.Binding

namespace MiddleEnd.Contracts

/-- An instance field of the guard type. -/
def isFrameField (u : Universe) (guard : TypeId) (m : Member) : Bool :=
  match m.field? with
  | some field => !field.flags.isStatic && (u.resolveType field.type).isBoundTo guard
  | none => false

/-- An instance method without parameters that returns the guard type. -/
def isFrameGetter (u : Universe) (guard : TypeId) (m : Member) : Bool :=
  match m.method? with
  | some method => method.flags.hasThis && method.parameters.isEmpty && !method.isConstructor &&
    (u.resolveType method.returnType).isBoundTo guard
  | none => false

/-- The first field and the first getter of a guard among members. -/
def contractOf (u : Universe) (guard type : TypeId) (members : List Member) : Contract where
  getter := (members.findIdx? (isFrameGetter u guard)).map fun i => ⟨type, i⟩
  field := (members.findIdx? (isFrameField u guard)).map fun i => ⟨type, i⟩

/-- Gives a type its contract, if it has any part of one. -/
def installOn {σ : Type} (guard type : TypeId) : PassM σ Nat := do
  let u := (← get).types
  let node ← PassM.ofExcept (u.type type)
  let contract := contractOf u guard type node.members
  if contract = {} then return 0
  PassM.modifyTypes fun u => u.modifyType type fun t => { t with contract := some contract }
  return 1

/-- Installs contracts on types in their order and counts them. -/
def installOnAll {σ : Type} (guard : TypeId) : List TypeId → PassM σ Nat
  | [] => return 0
  | type :: types => do
    let first ← installOn guard type
    let rest ← installOnAll guard types
    return first + rest

/-- Gives contracts to the types that the unit lists, and counts them. -/
def install {σ : Type} (unit : CompilationUnit) (guard : TypeId) : PassM σ Nat := do
  let installed ← installOnAll guard unit.root.allTypes
  PassM.emit [.contractsInstalled installed]
  return installed

end MiddleEnd.Contracts
