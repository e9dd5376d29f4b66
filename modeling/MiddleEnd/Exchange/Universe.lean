/-
  The exchange form of members, types, modules and units. Parameters and preconditions also stand
  there as text, and the regions of source that this text quotes are listed beside the form.
-/
import MiddleEnd.Exchange.Code
import MiddleEnd.Universe.Basic

namespace MiddleEnd.Exchange

/-- Writes an argument of an attribute. -/
def attributeArgumentJson : AttributeArgument → Json
  | .positional value => .object [("value", exprJson value)]
  | .named name value => .object [("name", .string name), ("value", exprJson value)]

/-- Writes an attribute. -/
def attributeJson (a : Attribute) : Json :=
  .object [("constructor", exprJson a.constructor),
    ("arguments", .array (a.arguments.map attributeArgumentJson)),
    ("positional", .ofNat a.positional.length)]

/-- Writes attributes. -/
def attributesJson (as : List Attribute) : Json := .array (as.map attributeJson)

/-- Writes a parameter. -/
def parameterJson (p : Parameter) : Json :=
  .object [("name", .string p.name), ("type", typeJson p.type),
    ("by_ref", .bool p.type.isReference), ("attributes", attributesJson p.attributes),
    ("text", .string p.text)]

/-- Writes parameters. -/
def parametersJson (ps : List Parameter) : Json := .array (ps.map parameterJson)

/-- Writes types. -/
def typesJson (ts : List TypeRef) : Json := .array (ts.map typeJson)

/-- Writes preconditions. -/
def preconditionsJson (ps : List Precondition) : Json := .strings (ps.map (·.text))

/-- Writes a method. -/
def methodJson (m : Method) : Json :=
  .object [("ctor", .bool m.isConstructor), ("parameters", parametersJson m.parameters),
    ("returns", typeJson m.returnType), ("return_attributes", attributesJson m.returnAttributes),
    ("flags", .string m.flags.text), ("body", .option (fun b => blockJson b.block) m.body),
    ("temps", .option (fun b => .ofNat b.tempCount) m.body),
    ("implemented", typesJson m.implementedTypes),
    ("conditional", .option .string m.conditionalSymbol),
    ("preconditions", preconditionsJson m.preconditions),
    ("implicit", preconditionsJson m.implicitPreconditions)]

/-- What the written method quotes. -/
def methodQuotes (m : Method) : Quotes :=
  m.parameters.flatMap (·.quotes) ++ m.preconditions.flatMap (·.quotes)
    ++ m.implicitPreconditions.flatMap (·.quotes)

/-- The name of a kind of member, and what it holds. -/
def memberKindJson : MemberKind → String × Json
  | .field f =>
    ("Field", .object [("type", typeJson f.type), ("flags", .string f.flags.text),
      ("init", .option exprJson f.initializer), ("default", .option literalJson f.defaultValue)])
  | .method m => ("Method", methodJson m)
  | .property p =>
    ("Property", .object [("type", typeJson p.type), ("parameters", parametersJson p.parameters),
      ("getter", .option refJson p.getter), ("setter", .option refJson p.setter),
      ("implemented", typesJson p.implementedTypes), ("static", .bool p.isStatic)])
  | .event e =>
    ("Event", .object [("type", typeJson e.type), ("flags", .string e.flags.text),
      ("implemented", typesJson e.implementedTypes)])
  | .nestedType id => ("NestedType", .object [("id", typeIdJson id)])
  | .snippet => ("Snippet", .object [])

/-- Writes a member. -/
def memberJson (m : Member) : Json :=
  let (kind, detail) := memberKindJson m.kind
  .object [("name", .string m.name), ("declaring_type", typeIdJson m.declaringType),
    ("kind", .string kind), ("static", .bool m.isStatic),
    ("attributes", attributesJson m.attributes), ("src", .option sourceJson m.source),
    ("detail", detail)]

/-- What the written member quotes. -/
def memberQuotes (m : Member) : Quotes :=
  match m.kind with
  | .method method => methodQuotes method
  | .property property => property.parameters.flatMap (·.quotes)
  | _ => []

/-- Writes the contract of a type. -/
def contractJson (c : Contract) : Json :=
  .object [("getter", .option refJson c.getter), ("field", .option refJson c.field)]

/-- The name of a visibility of types. -/
def typeVisibilityName : TypeVisibility → String
  | .notPublic => "NotPublic"
  | .publicType => "Public"
  | .nestedPublic => "NestedPublic"
  | .nestedPrivate => "NestedPrivate"
  | .nestedFamily => "NestedFamily"
  | .nestedAssembly => "NestedAssembly"
  | .nestedFamAndAssem => "NestedFamAndAssem"
  | .nestedFamOrAssem => "NestedFamOrAssem"

/-- The name of a layout. -/
def layoutName : Layout → String
  | .auto => "Auto"
  | .sequential => "Sequential"
  | .explicit => "Explicit"

/-- The name of a string format. -/
def stringFormatName : StringFormat → String
  | .ansi => "Ansi"
  | .unicode => "Unicode"
  | .auto => "Auto"

/-- Writes the flags of a type. -/
def typeFlagsJson (f : TypeFlags) : Json :=
  .object [("visibility", .string (typeVisibilityName f.visibility)),
    ("outside", .bool f.visibility.isVisibleOutside),
    ("layout", .string (layoutName f.layout)),
    ("string_format", .string (stringFormatName f.stringFormat)),
    ("set", .strings (flagWord f.isAbstract "abstract" ++ flagWord f.isSealed "sealed" ++
      flagWord f.specialName "special_name" ++ flagWord f.rtSpecialName "rt_special_name" ++
      flagWord f.serializable "serializable" ++ flagWord f.beforeFieldInit "before_field_init" ++
      flagWord f.hasSecurity "has_security" ++ flagWord f.isImport "import"))]

/-- What only some kinds of types have. -/
def typeKindFields : TypeKind → List (String × Json)
  | .enumType underlying => [("underlying", typeJson underlying)]
  | .delegateType ps returns => [("parameters", parametersJson ps), ("returns", typeJson returns)]
  | .classType => []
  | .structType => []
  | .interfaceType => []

/-- Writes a type with its members. -/
def typeNodeJson (t : TypeNode) : Json :=
  .object ([("kind", .string t.kind.text), ("name", .string t.name),
    ("namespace", .string t.namespaceName), ("full_name", .string t.fullName),
    ("module", .ofNat t.declaringModule.index),
    ("declaring_type", .option typeIdJson t.declaringType), ("flags", typeFlagsJson t.flags),
    ("interfaces", typesJson t.interfaces), ("attributes", attributesJson t.attributes),
    ("contract", .option contractJson t.contract), ("src", .option sourceJson t.source),
    ("members", .array (t.members.map memberJson))] ++ typeKindFields t.kind)

/-- What the written type quotes. -/
def typeNodeQuotes (t : TypeNode) : Quotes :=
  t.members.flatMap memberQuotes ++
    (match t.kind with
      | .delegateType parameters _ => parameters.flatMap (·.quotes)
      | _ => [])

/-- Writes references to assemblies. -/
def referencesJson (rs : List AssemblyReference) : Json :=
  .array (rs.map fun r => .strings [r.name, r.key])

/-- Writes a module. -/
def moduleJson (m : Module) : Json :=
  .object [("id", .ofNat m.id.index), ("name", .string m.name),
    ("types", .array (m.types.toList.map typeNodeJson)),
    ("top_level", .array (m.topLevel.map typeIdJson)),
    ("references", referencesJson m.references), ("attributes", attributesJson m.attributes)]

/-- What the written module quotes. -/
def moduleQuotes (m : Module) : Quotes := m.types.toList.flatMap typeNodeQuotes

mutual

/-- Writes a namespace. -/
def namespaceJson : Namespace → Json
  | ⟨name, namespaces, types, used, source⟩ =>
    .object [("name", .string name), ("namespaces", .array (namespacesJson namespaces)),
      ("types", .array (types.map typeIdJson)), ("used", .strings used),
      ("src", .option sourceJson source)]

/-- Writes namespaces. -/
def namespacesJson : List Namespace → List Json
  | [] => []
  | n :: ns => namespaceJson n :: namespacesJson ns

end

/-- Writes a unit. -/
def unitJson (u : CompilationUnit) : Json :=
  .object [("name", .option .string u.name), ("root", namespaceJson u.root),
    ("src", .option sourceJson u.source),
    ("symbols", .option (fun s => .strings s.names) u.symbols), ("snippet", .bool u.isSnippet)]

/-- Writes the text of the body of a method. -/
def bodyText (m : Method) : Json := .option (fun b => .string b.block.text) m.body

/-- What the text of the body of a method quotes. -/
def bodyQuotes (m : Method) : Quotes := m.body.toList.flatMap (·.block.quotes)

/-- The id, name, body, temporaries and implicit preconditions of a method. -/
def methodEntry (u : Universe) (ref : MemberRef) : Except InternalError (Json × Quotes) := do
  let member ← u.member ref
  let method ← u.method ref
  return (.array [refJson ref, .string member.name, bodyText method,
      .option (fun b => .ofNat b.tempCount) method.body,
      preconditionsJson method.implicitPreconditions],
    bodyQuotes method ++ method.implicitPreconditions.flatMap (·.quotes))

/-- Every method of a unit in short. -/
def methodEntries (u : Universe) (unit : CompilationUnit) :
    Except InternalError (Json × Quotes) := do
  let entries ← (← u.unitMethods unit).mapM (methodEntry u)
  return (.array (entries.map (·.1)), entries.flatMap (·.2))

end MiddleEnd.Exchange
