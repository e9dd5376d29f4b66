/-
  Member binding. Names of members become references to them: bare names of members of the type
  around, and names behind an expression whose type is bound.
-/
import MiddleEnd.Code.Editor
import MiddleEnd.Pass.Basic

namespace MiddleEnd

mutual

/-- The dotted name that a chain of qualified names spells. -/
def Expr.dottedName? : Expr → Option String
  | ⟨form, _, _⟩ => form.dottedName?

/-- The name that a chain of qualified names spells. -/
def ExprForm.dottedName? : ExprForm → Option String
  | .identifier name => some name
  | .qualified qualifier name =>
    match qualifier.dottedName? with
    | some dotted => some (dotted ++ "." ++ name)
    | none => none
  | _ => none

end

/-- A named type that is known becomes bound to it; all else stays. -/
def Universe.resolveType (u : Universe) (type : TypeRef) : TypeRef :=
  match type with
  | .named name =>
    match name.dottedName?.bind u.findType? with
    | some id => .bound id
    | none => type
  | _ => type

namespace Binding

/-- What binding keeps: how many members were bound, and events. -/
structure State where
  bound : Nat := 0
  trace : Trace := []

/-- What a name stands for in a type. -/
structure Found where
  member : MemberRef
  /-- The type of the value, for fields. -/
  valueType : Option TypeRef
  isStatic : Bool

/-- The member of a name in a type, with the type of its values if it is a field. -/
def lookup (u : Universe) (type : TypeId) (name : String) : Option Found := do
  let ref ← u.findMember? type name
  let member ← (u.member ref).toOption
  return {
    member := ref
    valueType := member.field?.map fun field => u.resolveType field.type
    isStatic := member.isStatic }

/-- Binds an expression to a member. -/
def bindTo (e : Expr) (receiver : Option Expr) (found : Found) : StateM State Expr := do
  modify fun s => { s with bound := s.bound + 1, trace := s.trace ++ [.boundMember found.member] }
  return { e with form := .member receiver found.member, type := found.valueType }

/-- The object whose method is running. -/
def self (owner : TypeId) : Expr := { form := .thisRef, type := some (.bound owner) }

/-- The type of a call of a bound method. -/
def callType (u : Universe) (callee : Expr) : Option TypeRef :=
  match callee.form with
  | .member _ ref =>
    match u.method ref with
    | .ok method => some (u.resolveType method.returnType)
    | .error _ => none
  | _ => none

/-- The type that an expression is bound to. -/
def boundType? (e : Expr) : Option TypeId :=
  match e.type with
  | some (.bound id) => some id
  | _ => none

/-- Binds an expression whose parts are bound. -/
def bindExpr (u : Universe) (owner : TypeId) (e : Expr) : StateM State Expr :=
  match e.form with
  | .thisRef => return { e with type := some (.bound owner) }
  | .identifier name =>
    match lookup u owner name with
    | some found => bindTo e (if found.isStatic then none else some (self owner)) found
    | none => return e
  | .qualified qualifier name =>
    match (boundType? qualifier).bind fun type => lookup u type name with
    | some found => bindTo e (some qualifier) found
    | none => return e
  | .call callee _ => return { e with type := (callType u callee).or e.type }
  | _ => return e

/-- Binds names from the inside out. -/
def editor (u : Universe) (owner : TypeId) : Editor State where
  expr := fun _ walk => do Edit.always (bindExpr u owner (← walk))

/-- Binds the names in a body. -/
def editBody (u : Universe) (method : MemberRef) (body : Body) (bound : Nat) : EditedBody Nat :=
  let (block, s) := (editor u method.type).editBlock body.block {}
  { body := { body with block }, state := bound + s.bound, trace := s.trace }

/-- The state counts the names that were bound. -/
def pass : BodyPass Nat where
  name := "member-binding"
  editBody := editBody

end Binding

end MiddleEnd
