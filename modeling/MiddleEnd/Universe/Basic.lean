/-
  The universe: every module that the passes can see, and how types, members and method bodies
  are found in it and changed.
-/
import MiddleEnd.Universe.Fault
import MiddleEnd.Universe.Module
import MiddleEnd.Universe.Unit

namespace MiddleEnd

/-- All modules of a compilation. -/
structure Universe where
  modules : Arena ModuleId Module := {}

/-- The parts of a name before and behind its last dot. -/
def splitLastDot : List Char → Option (List Char × List Char)
  | [] => none
  | c :: cs =>
    match splitLastDot cs with
    | some (before, behind) => some (c :: before, behind)
    | none => if c = '.' then some ([], cs) else none

/-- A dotted name as a namespace and a name in it. -/
def splitQualified (qualified : String) : String × String :=
  match splitLastDot qualified.toList with
  | some (before, behind) => (String.ofList before, String.ofList behind)
  | none => ("", qualified)

namespace Universe

/-- Registers an empty module. -/
def newModule (u : Universe) (name : String) : Universe × ModuleId :=
  let (modules, id) := u.modules.push { id := u.modules.nextIndex, name }
  (⟨modules⟩, id)

/-- The module of an id. -/
def module? (u : Universe) (id : ModuleId) : Option Module := u.modules.get? id

/-- Changes a module; without a module of that id nothing changes. -/
def modifyModule (u : Universe) (id : ModuleId) (f : Module → Module) : Universe :=
  ⟨u.modules.modify id f⟩

/-- The type of an id. -/
def type? (u : Universe) (id : TypeId) : Option TypeNode := do
  (← u.module? id.module).type? id

/-- The type of an id, or the error that there is none. -/
def type (u : Universe) (id : TypeId) : Except InternalError TypeNode :=
  match u.type? id with
  | some node => .ok node
  | none => .error (.danglingType id)

/-- Changes a type; without a type of that id nothing changes. -/
def modifyType (u : Universe) (id : TypeId) (f : TypeNode → TypeNode) : Universe :=
  u.modifyModule id.module fun m => m.modifyType id f

/-- The member that is referred to, or the error that there is none. -/
def member (u : Universe) (ref : MemberRef) : Except InternalError Member := do
  let node ← u.type ref.type
  match node.members[ref.index]? with
  | some member => return member
  | none => throw (.danglingMember ref)

/-- Changes a member; without a member at that place nothing changes. -/
def modifyMember (u : Universe) (ref : MemberRef) (f : Member → Member) : Universe :=
  u.modifyType ref.type fun t => { t with members := t.members.modify ref.index f }

/-- The method that is referred to, or the error that there is none. -/
def method (u : Universe) (ref : MemberRef) : Except InternalError Method := do
  match (← u.member ref).method? with
  | some method => return method
  | none => throw (.danglingMember ref)

/-- Changes a method; a member that is none stays as it is. -/
def modifyMethod (u : Universe) (ref : MemberRef) (f : Method → Method) : Universe :=
  u.modifyMember ref (Member.modifyMethod f)

/-- The first type of that dotted name that is not nested, module by module. -/
def findType? (u : Universe) (qualified : String) : Option TypeId :=
  let (ns, name) := splitQualified qualified
  u.modules.toList.findSome? fun m => m.findType? ns name

/-- The first member of that name. -/
def findMember? (u : Universe) (type : TypeId) (name : String) : Option MemberRef := do
  let index ← (← u.type? type).memberIndex? name
  return ⟨type, index⟩

/-- The first method of that name. -/
def findMethod? (u : Universe) (type : TypeId) (name : String) : Option MemberRef := do
  let index ← (← u.type? type).methodIndex? name
  return ⟨type, index⟩

/-- How many types there are; no chain of distinct types is longer. -/
def typeCount (u : Universe) : Nat := u.modules.toList.foldl (fun n m => n + m.types.size) 0

/-- The name of a type behind those of the types around it, at most `steps` of them. Where a type
    lies around itself there is no such name, and running out of steps stands for a search that does
    not end; the result is of no meaning then. -/
def fullNameWithin (u : Universe) : (steps : Nat) → TypeId → Except InternalError String
  | 0, _ => .ok ""
  | steps + 1, id => do
    let node ← u.type id
    match node.declaringType with
    | some outer => return (← u.fullNameWithin steps outer) ++ "+" ++ node.name
    | none => return node.fullName

/-- The name of a type, with a plus sign behind each type around it. -/
def fullName (u : Universe) (id : TypeId) : Except InternalError String :=
  u.fullNameWithin (u.typeCount + 1) id

/-- Whether a type and the types around it, at most `steps` of them, can be seen from outside. Where
    a type lies around itself, running out of steps stands for a search that does not end; the
    result is of no meaning then. -/
def isVisibleWithin (u : Universe) : (steps : Nat) → TypeId → Except InternalError Bool
  | 0, _ => .ok true
  | steps + 1, id => do
    let node ← u.type id
    if !node.flags.visibility.isVisibleOutside then return false
    match node.declaringType with
    | some outer => u.isVisibleWithin steps outer
    | none => return true

/-- Whether code outside the assembly can call the method. -/
def isExternallyVisible (u : Universe) (ref : MemberRef) : Except InternalError Bool := do
  let method ← u.method ref
  if !method.flags.visibility.isVisibleOutside then return false
  u.isVisibleWithin (u.typeCount + 1) ref.type

/-- Takes the body of a method out of the universe. -/
def detachBody (u : Universe) (ref : MemberRef) :
    Except InternalError (Option Body × Universe) := do
  let method ← u.method ref
  return (method.body, u.modifyMethod ref fun m => { m with body := none })

/-- Puts a body back where there is none. -/
def attachBody (u : Universe) (ref : MemberRef) (body : Body) : Except InternalError Universe := do
  let method ← u.method ref
  if method.body.isSome then throw (.bodyConflict ref)
  return u.modifyMethod ref fun m => { m with body := some body }

/-- The positions of the methods among members. -/
def methodPositions (members : List Member) : List Nat :=
  members.zipIdx.filterMap fun (m, i) => if m.method?.isSome then some i else none

/-- The types nested among members. -/
def nestedTypes (members : List Member) : List TypeId :=
  members.filterMap fun m =>
    match m.kind with
    | .nestedType id => some id
    | _ => none

/-- The methods of a type, then those of the types nested in it, at most `levels` deep. Where a type
    is nested in itself, running out of levels stands for a search that does not end; the result is
    of no meaning then. -/
def typeMethods (u : Universe) : (levels : Nat) → TypeId → Except InternalError (List MemberRef)
  | 0, _ => .ok []
  | levels + 1, id => do
    let node ← u.type id
    let own := (methodPositions node.members).map fun i => ⟨id, i⟩
    let nested ← (nestedTypes node.members).mapM (u.typeMethods levels)
    return own ++ nested.flatten

/-- The methods of every type of the unit, nested types included, in the order of their
    declarations. Nesting without a cycle is never deeper than there are types. -/
def unitMethods (u : Universe) (unit : CompilationUnit) :
    Except InternalError (List MemberRef) := do
  return (← unit.root.allTypes.mapM (u.typeMethods (u.typeCount + 1))).flatten

end Universe

end MiddleEnd
