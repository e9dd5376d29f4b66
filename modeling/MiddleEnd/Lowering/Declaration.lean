/-
  Lowering of members, types, namespaces and whole units into a module.
-/
import MiddleEnd.Lowering.Code
import MiddleEnd.Universe.Unit

namespace MiddleEnd.Lowering

open Lower

variable {σ : Type} (host : Host σ)

/-- Arguments that cannot be read drop out. -/
def attributeArguments : List CodeTree.AttributeArgument → Lower σ (List AttributeArgument)
  | [] => return []
  | a :: as => do
    let value ← expr host a.value
    let as ← attributeArguments as
    match value, a.name with
    | none, _ => return as
    | some value, none => return .positional value :: as
    | some value, some name =>
      return (if name = "" then .positional value else .named name value) :: as

/-- Lowers an attribute; its constructor is found by its name later. -/
def attributeUse (a : CodeTree.Attribute) : Lower σ Attribute := do
  return { constructor := qualify a.name, arguments := ← attributeArguments host a.arguments }

/-- Lowers attributes. -/
def attributes (as : List CodeTree.Attribute) : Lower σ (List Attribute) :=
  as.mapM (attributeUse host)

/-- Lowers a parameter; one that is not only given has a reference type. -/
def parameter (p : CodeTree.Parameter) : Lower σ Parameter := do
  let type := typeRef p.type
  return {
    name := p.name
    type := if p.direction = .input then type else .reference type
    attributes := ← attributes host p.customAttributes }

/-- Lowers parameters. -/
def parameters (ps : List CodeTree.Parameter) : Lower σ (List Parameter) :=
  ps.mapM (parameter host)

/-- The type whose members are lowered. -/
structure Owner where
  id : TypeId
  isInterface : Bool
  isEnum : Bool

/-- Methods of an interface have no body unless they are static. -/
def Owner.givesBody (owner : Owner) (flags : MethodFlags) : Bool :=
  !owner.isInterface || flags.isStatic

/-- The fields of an enumeration are constants of its own type. -/
def enumField (owner : Owner) (d : CodeTree.FieldDeclaration) : Lower σ Field := do
  let init ← exprOption host d.init
  return {
    type := .bound owner.id
    flags := { visibility := visibility d.attributes, isStatic := true, literal := true,
               hasDefault := true }
    defaultValue := init.bind Expr.literal? }

/-- A field of a type that is no enumeration. -/
def ordinaryField (d : CodeTree.FieldDeclaration) : Lower σ Field := do
  let initializer ← exprOption host d.init
  return {
    type := typeRef d.type
    flags := { visibility := visibility d.attributes, isStatic := isStatic d.attributes,
               literal := isConst d.attributes }
    initializer }

/-- Lowers a field. -/
def fieldMember (owner : Owner) (source : Option SourceContext) (d : CodeTree.FieldDeclaration) :
    Lower σ Member := do
  let field ← if owner.isEnum then enumField host owner d else ordinaryField host d
  let attributes ← attributes host d.customAttributes
  return { name := d.name, declaringType := owner.id, attributes, kind := .field field, source }

/-- The body of a method, if it has one. -/
def bodyOf (owner : Owner) (flags : MethodFlags) (statements : List CodeTree.Stmt) :
    Lower σ (Option Body) := do
  if owner.givesBody flags then return some { block := ← block host statements } else return none

/-- Lowers a method, under a name and with modifiers that the caller gives. -/
def methodMember (owner : Owner) (source : Option SourceContext) (name : String)
    (modifiers : CodeTree.MemberAttributes) (d : CodeTree.MethodDeclaration) :
    Lower σ Member := do
  let flags := methodFlags modifiers
  let parameters ← parameters host d.parameters
  let returnAttributes ← attributes host d.returnAttributes
  let body ← bodyOf host owner flags d.statements
  let method : Method := {
    kind := .ordinary
    parameters
    returnType := returnType d.returnType
    returnAttributes
    flags
    body
    implementedTypes := implementedTypes d.privateImplementationType d.implementationTypes
    conditionalSymbol := conditionalSymbol? d.customAttributes }
  let attributes ← attributes host d.customAttributes
  return { name, declaringType := owner.id, attributes, kind := .method method, source }

/-- The name of instance constructors. -/
def constructorName : String := ".ctor"

/-- The call of another constructor, of this class or of its base. -/
def chainCall (receiver : ExprForm) (arguments : List Expr) : Stmt :=
  .expression (ExprForm.call (ExprForm.qualified receiver.expr constructorName).expr arguments).expr

/-- Arguments of a chain call that cannot be read drop out. -/
def chainArguments : List CodeTree.Expr → Lower σ (List Expr)
  | [] => return []
  | e :: es => do
    let e ← expr host e
    let es ← chainArguments es
    return e.toList ++ es

/-- Lowers a constructor. Its body starts with the call of another one: of the class if arguments
    for that are given, else of the base. -/
def constructorMember (owner : Owner) (source : Option SourceContext)
    (d : CodeTree.ConstructorDeclaration) : Lower σ Member := do
  let chain ← if d.chainedArguments.isEmpty
    then do pure (chainCall .baseRef (← chainArguments host d.baseArguments))
    else do pure (chainCall .thisRef (← chainArguments host d.chainedArguments))
  let statements ← stmts host d.statements
  let parameters ← parameters host d.parameters
  let method : Method := {
    kind := .instanceInitializer
    parameters
    flags := { methodFlags d.attributes with specialName := true, rtSpecialName := true }
    body := some { block := { statements := chain :: statements } } }
  let attributes ← attributes host d.customAttributes
  return { name := constructorName, declaringType := owner.id, attributes,
           kind := .method method, source }

/-- The constructor of a class that declares none. -/
def defaultConstructor (owner : TypeId) : Member where
  name := constructorName
  declaringType := owner
  kind := .method {
    kind := .instanceInitializer
    flags := .onInstance .publicMember
    body := some { block := { statements := [chainCall .baseRef []] } } }

/-- An accessor of a property, if it is declared. -/
def accessor (owner : Owner) (source : Option SourceContext) (declared : Bool) (name : String)
    (method : Method) (statements : List CodeTree.Stmt) : Lower σ (List Member) := do
  if declared then
    let body ← bodyOf host owner method.flags statements
    return [{ name, declaringType := owner.id, kind := .method { method with body }, source }]
  else return []

/-- The accessors of a property, then the property itself. The first of them gets the position
    `position`. -/
def propertyMembers (owner : Owner) (source : Option SourceContext) (position : Nat)
    (d : CodeTree.PropertyDeclaration) : Lower σ (List Member) := do
  let flags := { methodFlags d.attributes with specialName := true }
  let implementedTypes := implementedTypes d.privateImplementationType d.implementationTypes
  let parameters ← parameters host d.parameters
  let type := typeRef d.type
  let getter ← accessor host owner source d.hasGet ("get_" ++ d.name)
    { flags, returnType := type, parameters, implementedTypes } d.getStatements
  let setter ← accessor host owner source d.hasSet ("set_" ++ d.name)
    { flags, returnType := .void, parameters := parameters ++ [{ name := "value", type }],
      implementedTypes } d.setStatements
  let attributes ← attributes host d.customAttributes
  let property : Property := {
    type
    parameters
    getter := if d.hasGet then some ⟨owner.id, position⟩ else none
    setter := if d.hasSet then some ⟨owner.id, position + getter.length⟩ else none
    implementedTypes
    isStatic := flags.isStatic }
  return getter ++ setter ++
    [{ name := d.name, declaringType := owner.id, attributes, kind := .property property, source }]

/-- Lowers an event. -/
def eventMember (owner : Owner) (source : Option SourceContext) (d : CodeTree.EventDeclaration) :
    Lower σ Member := do
  let event : Event := {
    type := typeRef d.type
    flags := { methodFlags d.attributes with specialName := true }
    implementedTypes := implementedTypes d.privateImplementationType d.implementationTypes }
  let attributes ← attributes host d.customAttributes
  return { name := d.name, declaringType := owner.id, attributes, kind := .event event, source }

/-- The first base type of an enumeration is the type of its values. -/
def typeKind (baseTypes : List CodeTree.TypeReference) : CodeTree.TypeKind → Lower σ TypeKind
  | .classType => return .classType
  | .structType => return .structType
  | .interfaceType => return .interfaceType
  | .enumType => return .enumType ((baseTypes.head?.map typeRef).getD .int32)
  | .delegateType ps type => do return .delegateType (← parameters host ps) (returnType type)

/-- The base types of classes, structs and interfaces. -/
def interfaces (baseTypes : List CodeTree.TypeReference) : CodeTree.TypeKind → List TypeRef
  | .classType => baseTypes.map typeRef
  | .structType => baseTypes.map typeRef
  | .interfaceType => baseTypes.map typeRef
  | .enumType => []
  | .delegateType _ _ => []

/-- The kind of a class. -/
def isClass : CodeTree.TypeKind → Bool
  | .classType => true
  | _ => false

/-- What members are told about the type that they belong to, by its declared kind. -/
def ownerOf (id : TypeId) : CodeTree.TypeKind → Owner
  | .interfaceType => ⟨id, true, false⟩
  | .enumType => ⟨id, false, true⟩
  | _ => ⟨id, false, false⟩

/-- A member that is a constructor. -/
def isConstructor (m : Member) : Bool :=
  match m.method? with
  | some method => method.isConstructor
  | none => false

/-- A class without a constructor gets one. -/
def withConstructor (kind : CodeTree.TypeKind) (id : TypeId) (members : List Member) :
    List Member :=
  if isClass kind && !members.any isConstructor then members ++ [defaultConstructor id]
  else members

mutual

/-- Enters a type into the module, with the types nested in it behind it. A delegate has no
    members. -/
def typeDeclaration (ns : String) (outer : Option TypeId) :
    CodeTree.TypeDeclaration → Lower σ TypeId
  | ⟨name, kind, modifiers, baseTypes, declared, customAttributes, source⟩ => do
    let nodeKind ← typeKind host baseTypes kind
    let attributes ← attributes host customAttributes
    let flags := typeFlags modifiers
    let id ← addType {
      kind := nodeKind
      name
      namespaceName := ns
      declaringModule := (← get).module.id
      declaringType := outer
      flags := { flags with isSealed := flags.isSealed || kind.isDelegate }
      interfaces := interfaces baseTypes kind
      attributes
      source }
    if kind.isDelegate then return id
    let members ← members (ownerOf id kind) 0 declared
    let members := withConstructor kind id members
    emit (.loweredType name members.length)
    modifyModule fun m => m.modifyType id fun t => { t with members }
    return id

/-- The members from a position on. -/
def members (owner : Owner) (position : Nat) : List CodeTree.Member → Lower σ (List Member)
  | [] => return []
  | m :: ms => do
    let first ← member owner position m
    let rest ← members owner (position + first.length) ms
    return first ++ rest

/-- Lowers a member; a property gives several, and one of unknown shape none. -/
def member (owner : Owner) (position : Nat) : CodeTree.Member → Lower σ (List Member)
  | ⟨.unrecognized kind, source⟩ => do
    unexpected kind source
    return []
  | ⟨.field d, source⟩ => do return [← fieldMember host owner source d]
  | ⟨.method d, source⟩ => do return [← methodMember host owner source d.name d.attributes d]
  | ⟨.entryPoint d, source⟩ => do return [← methodMember host owner source "Main" .publicStatic d]
  | ⟨.constructor d, source⟩ => do return [← constructorMember host owner source d]
  | ⟨.property d, source⟩ => propertyMembers host owner source position d
  | ⟨.event d, source⟩ => do return [← eventMember host owner source d]
  | ⟨.snippet text pragma, _⟩ => do
    let document ← snippetDocument host pragma text
    return [{ name := "", declaringType := owner.id, kind := .snippet,
              source := some (.whole document) }]
  | ⟨.nestedType d, source⟩ => do
    let id ← typeDeclaration "" (some owner.id) d
    return [{ name := d.name, declaringType := owner.id, kind := .nestedType id, source }]

end

/-- Lowers a namespace and enters its types. -/
def namespaceNode (n : CodeTree.Namespace) : Lower σ Namespace := do
  let types ← n.types.mapM (typeDeclaration host n.name none)
  return { name := n.name, types, usedNamespaces := n.imports, source := n.source }

/-- Asks for each name once; a reference whose key is known already is not added again. -/
def references (seen : List String) : List String → Lower σ Unit
  | [] => return
  | name :: names => do
    match ← ask (host.resolve name seen) with
    | .ok reference =>
      if seen.contains reference.key then
        emit (.referencePresent name)
        references seen names
      else
        modifyModule fun m => { m with references := m.references ++ [reference] }
        references (seen ++ [reference.key]) names
    | .error error =>
      emit (.referenceUnresolved name error)
      modify fun s => { s with errors := s.errors ++
        [{ level := .error, kind := .reference, argument := name, notes := [error.message] }] }
      references seen names

/-- The source of a unit that is a snippet, under the name of its file or of the module. -/
def unitSource (s : CodeTree.UnitSnippet) : Lower σ SourceContext := do
  let document ← match s.pragma with
    | some pragma => ask (host.document (some pragma.fileName) pragma.lineNumber s.value)
    | none => do ask (host.document (some (← get).module.name) 1 s.value)
  return .whole document

/-- Lowers a code tree into the module of the state. -/
def unit (u : CodeTree.CompileUnit) : Lower σ CompilationUnit := do
  let before := (← get).errors.length
  let attributes ← attributes host u.assemblyAttributes
  modifyModule fun m => { m with attributes := m.attributes ++ attributes }
  references host ((← get).module.references.map (·.key)).eraseDups u.referencedAssemblies
  let namespaces ← u.namespaces.mapM (namespaceNode host)
  let symbols := u.definedSymbols.map SymbolSet.ofList
  let result : CompilationUnit ← match u.snippet with
    | none => pure { root := { namespaces }, symbols }
    | some s => do
      let source ← unitSource host s
      pure {
        name := s.pragma.map (·.fileName)
        root := { namespaces, source := some source }
        source := some source
        symbols
        isSnippet := true }
  let s ← get
  emit (.loweredUnit s.module.name s.module.types.size (s.errors.length - before))
  return result

end MiddleEnd.Lowering
