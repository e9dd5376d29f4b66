/-
  Reading members, types and namespaces from their exchange form.
-/
import MiddleEnd.Exchange.CodeReader
import MiddleEnd.Exchange.Universe

namespace MiddleEnd.Exchange.Read

/-- Reads a parameter. -/
def parameter (d : Draft) : Decoded Parameter := do
  return { name := ← text d "name", type := ← field d "type" typeRef }

/-- Reads parameters; without them there are none. -/
def parameters (d : Draft) : Decoded (List Parameter) := fieldD d "parameters" (items parameter) []

/-- Reads the kind of a type. -/
def typeKind (d : Draft) : Decoded TypeKind := do
  match ← text d "kind" with
  | "class" => return .classType
  | "struct" => return .structType
  | "interface" => return .interfaceType
  | "enum" => return .enumType (← fieldD d "underlying" typeRef .int32)
  | "delegate" => return .delegateType (← parameters d) (← fieldD d "returns" typeRef .void)
  | _ => throw .mismatch

/-- The visibilities of types by their names. -/
def typeVisibilities : List (String × TypeVisibility) :=
  [.notPublic, .publicType, .nestedPublic, .nestedPrivate, .nestedFamily, .nestedAssembly,
   .nestedFamAndAssem, .nestedFamOrAssem].map fun v => (typeVisibilityName v, v)

/-- A type that is not in its module yet. -/
def typeNode (module : ModuleId) (d : Draft) : Decoded TypeNode := do
  return {
    kind := ← typeKind d
    name := ← text d "name"
    namespaceName := ← fieldD d "namespace" Decode.string ""
    declaringModule := module
    declaringType := ← field? d "declaring_type" typeId
    flags := { visibility := ← fieldD d "visibility" (entry typeVisibilities) .notPublic }
    interfaces := ← fieldD d "interfaces" (items typeRef) [] }

/-- The visibilities of members by their words. -/
def visibilities : List (String × Visibility) :=
  [.privateMember, .assembly, .family, .famAndAssem, .famOrAssem, .publicMember].map
    fun v => (v.text, v)

/-- The ways of dispatch by their words. -/
def dispatches : List (String × Dispatch) :=
  [("none", .none), ("virtual", .virtual), ("abstract", .abstract), ("override", .override)]

/-- Reads the visibility of a member. -/
def visibility (d : Draft) : Decoded Visibility :=
  fieldD d "visibility" (entry visibilities) .privateMember

/-- What is not static has a receiver. -/
def methodFlags (d : Draft) : Decoded MethodFlags := do
  let isStatic ← flag d "static"
  return {
    visibility := ← visibility d
    dispatch := ← fieldD d "dispatch" (entry dispatches) .none
    newSlot := ← flag d "new_slot"
    isStatic
    specialName := ← flag d "special_name"
    rtSpecialName := ← flag d "rt_special_name"
    hasThis := !isStatic }

/-- A block, with the number of temporaries beside it. -/
def body (d : Draft) : Decoded Body := do
  return { block := ← block d, tempCount := ← fieldD d "temps" nat 0 }

/-- Reads preconditions that something is not null. -/
def preconditions (d : Draft) : Decoded (List Precondition) := do
  return (← fieldD d "preconditions" (items expr) []).map .nonNull

/-- Reads what a member is. -/
def memberKind (d : Draft) : Decoded MemberKind := do
  match ← text d "kind" with
  | "Field" =>
    return .field {
      type := ← field d "type" typeRef
      flags := {
        visibility := ← visibility d
        isStatic := ← flag d "static"
        literal := ← flag d "literal"
        hasDefault := ← flag d "has_default" }
      initializer := ← field? d "init" expr
      defaultValue := ← field? d "default" literal }
  | "Method" =>
    return .method {
      kind := if ← flag d "ctor" then .instanceInitializer else .ordinary
      parameters := ← parameters d
      returnType := ← fieldD d "returns" typeRef .void
      flags := ← methodFlags d
      body := ← field? d "body" body
      conditionalSymbol := ← field? d "conditional" Decode.string
      preconditions := ← preconditions d }
  | "Property" =>
    return .property {
      type := ← field d "type" typeRef
      parameters := ← parameters d
      getter := ← field? d "getter" memberRef
      setter := ← field? d "setter" memberRef
      isStatic := ← flag d "static" }
  | "Event" => return .event { type := ← field d "type" typeRef, flags := ← methodFlags d }
  | "NestedType" => return .nestedType (← field d "id" typeId)
  | "Snippet" => return .snippet
  | _ => throw .mismatch

/-- A member of a type, unless it names another as its own. -/
def member (owner : TypeId) (d : Draft) : Decoded Member := do
  return {
    name := ← text d "name"
    declaringType := ← fieldD d "declaring_type" typeId owner
    kind := ← memberKind d
    source := ← field? d "src" source }

/-- Reads the contract of a type. -/
def contract (d : Draft) : Decoded Contract := do
  return { getter := ← field? d "getter" memberRef, field := ← field? d "field" memberRef }

/-- A namespace with others in it, at most so deep. -/
def namespaceAt : (depth : Nat) → Draft → Decoded Namespace
  | 0, d => .error (Decode.tooDeep d)
  | depth + 1, d => do
    return {
      name := ← fieldD d "name" Decode.string ""
      namespaces := ← fieldD d "namespaces" (items (namespaceAt depth)) []
      types := ← fieldD d "types" (items typeId) []
      usedNamespaces := ← fieldD d "used" (items Decode.string) [] }

/-- Reads the symbols of a unit, if they are given. -/
def symbols (d : Draft) : Decoded (Option SymbolSet) := do
  return (← field? d "symbols" (items Decode.string)).map SymbolSet.ofList

/-- A unit; its fields are those of the root namespace. -/
def unit (d : Draft) : Decoded CompilationUnit := do
  return { root := ← namespaceAt Decode.depthLimit d, symbols := ← symbols d }

end MiddleEnd.Exchange.Read
