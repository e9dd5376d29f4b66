/-
  The whole way of a code tree: lowering into a module next to a core library, member binding,
  guard contracts, and the passes.
-/
import MiddleEnd.Lowering.Declaration
import MiddleEnd.Pass.Contract
import MiddleEnd.Pass.Pipeline
import MiddleEnd.Universe.ModuleText

namespace MiddleEnd

/-- Assemblies from a fixed table of names and keys, and every name that was asked for. -/
structure AssemblyTable where
  assemblies : List (String × String) := []
  requests : List String := []
  deriving DecidableEq, Repr

namespace AssemblyTable

/-- A later entry of the same name wins. -/
def insert (t : AssemblyTable) (name key : String) : AssemblyTable :=
  { t with assemblies := (name, key) :: t.assemblies }

/-- The assemblies that are known without asking. -/
def standard : AssemblyTable :=
  (({} : AssemblyTable).insert "System" "system, version=4.0.0.0").insert "Microsoft.Contracts"
    "microsoft.contracts, version=1.0.0.0"

/-- Answers a request for an assembly and keeps it in mind. -/
def resolve (name : String) : StateM AssemblyTable (Except ResolveError AssemblyReference) :=
  fun t =>
    let answer := match t.assemblies.lookup name with
      | some key => .ok ⟨name, key⟩
      | none => .error (.notFound name)
    (answer, { t with requests := t.requests ++ [name] })

/-- Documents are taken as they are given. -/
def host : Host AssemblyTable where
  resolve := fun name _ => resolve name
  document := fun name startLine text => return ⟨name, startLine, text⟩

end AssemblyTable

/-- A check of the guard type. -/
def coreCheck (guard : TypeId) (name : String) : Member where
  name := name
  declaringType := guard
  kind := .method { flags := .onInstance .publicMember }

/-- Adds the guard type with its two checks. -/
def addGuard (m : Module) : Module :=
  let (m, guard) := m.addType {
    kind := .classType
    name := "Guard"
    namespaceName := "Microsoft.Contracts"
    declaringModule := m.id
    flags := { visibility := .publicType } }
  m.modifyType guard fun t => { t with members :=
    [coreCheck guard WellKnown.readingName, coreCheck guard WellKnown.writingName] }

/-- The core library alone. -/
def coreUniverse : Universe :=
  let (u, core) := Universe.newModule {} "Core"
  u.modifyModule core addGuard

/-- A tree that went through the middle end. -/
structure Compilation where
  types : Universe
  /-- The module that the tree was lowered into. -/
  module : ModuleId
  unit : CompilationUnit
  errors : Sink
  /-- The passes that ran. -/
  passes : List String := []
  trace : Trace := []

/-- What a lowering into a module of a universe gives. -/
structure Lowered (σ : Type) where
  types : Universe
  unit : CompilationUnit
  errors : Sink
  trace : Trace
  host : σ

/-- Lowers a tree into a module that is there. -/
def Universe.lowerInto {σ : Type} (u : Universe) (module : Module) (host : Host σ)
    (tree : CodeTree.CompileUnit) (errors : Sink) (state : σ) : Lowered σ :=
  let (unit, s) := (Lowering.unit host tree).run
    { module, errors, trace := [], host := state }
  { types := u.modifyModule module.id fun _ => s.module
    unit
    errors := s.errors
    trace := s.trace
    host := s.host }

namespace Compilation

/-- No errors were found. -/
def success (c : Compilation) : Bool := !c.errors.hasErrors

/-- The module of the tree as text. -/
def text (c : Compilation) : String :=
  match c.types.module? c.module with
  | some m => m.text
  | none => ""

/-- The errors as they are shown without colours. -/
def renderErrors (c : Compilation) : Except Overflow String := c.errors.render .plain

/-- The type of a name. -/
def typeNode? (c : Compilation) (type : String) : Option TypeNode := do
  c.types.type? (← c.types.findType? type)

/-- The member of a name in a type. -/
def findMember? (c : Compilation) (type name : String) : Option MemberRef := do
  c.types.findMember? (← c.types.findType? type) name

/-- The method of a name in a type. -/
def findMethod? (c : Compilation) (type name : String) : Option MemberRef := do
  c.types.findMethod? (← c.types.findType? type) name

/-- What the method of a name in a type is. -/
def method? (c : Compilation) (type name : String) : Option Method := do
  (c.types.method (← c.findMethod? type name)).toOption

/-- The body of the method of a name in a type. -/
def body? (c : Compilation) (type name : String) : Option Block := do
  return (← (← c.method? type name).body).block

/-- The preconditions that were collected for the method of a name in a type. -/
def implicitPreconditions (c : Compilation) (type name : String) : List Precondition :=
  match c.method? type name with
  | some method => method.implicitPreconditions
  | none => []

/-- Lowers a tree into a fresh module next to the core library. -/
def lowerWith {σ : Type} (host : Host σ) (tree : CodeTree.CompileUnit) :
    StateM σ Compilation := fun state =>
  let (u, module) := coreUniverse.newModule "App"
  let l := u.lowerInto { id := module, name := "App" } host tree [] state
  ({ types := l.types, module, unit := l.unit, errors := l.errors, trace := l.trace }, l.host)

/-- Lowers a tree and stops there. -/
def lower (tree : CodeTree.CompileUnit) : Compilation :=
  (lowerWith AssemblyTable.host tree AssemblyTable.standard).1

/-- Runs an action with a state of its own, which is dropped at its end. -/
def withState {σ α : Type} (state : σ) (action : PassM σ α) : PassM Unit α :=
  PassM.onPart (fun _ => state) (fun _ u => u) action

/-- Binding, contracts and passes over a lowered unit. -/
def finish (config : PipelineConfig) (unit : CompilationUnit) (errors : Sink) :
    PassM Unit (List String) := do
  let wellKnown ← PassM.ofExcept (WellKnown.ofUniverse (← get).types)
  withState 0 (Binding.pass.editUnit unit)
  let _ ← Contracts.install unit wellKnown.guardType
  withState { config, wellKnown } (Pipeline.run unit errors)

/-- The way of a tree, with all that was told on it. -/
def run (config : PipelineConfig) (tree : CodeTree.CompileUnit) :
    Except InternalError Compilation × Trace :=
  let c := lower tree
  let (result, s) := (finish config c.unit c.errors).run
    { state := (), types := c.types, trace := c.trace }
  (result.map fun passes => { c with types := s.types, passes, trace := s.trace }, s.trace)

end Compilation

/-- Lowers a tree, binds it and runs the passes. -/
def compileWith (config : PipelineConfig) (tree : CodeTree.CompileUnit) :
    Except InternalError Compilation :=
  (Compilation.run config tree).1

/-- Lowers a tree, binds it and runs every pass. -/
def compile (tree : CodeTree.CompileUnit) : Except InternalError Compilation :=
  compileWith {} tree

end MiddleEnd
