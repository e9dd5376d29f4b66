/-
  The JSON form of a code tree. Fields come in a fixed order with their defaults written out; the
  kind of a node comes first and its source, if there is one, last.
-/
import MiddleEnd.CodeTree.Basic
import MiddleEnd.Json.Value

namespace MiddleEnd.CodeTree

open Json (ofInt ofNat strings option)

/-- Writes the file and line that a snippet is said to come from. -/
def LinePragma.toJson (p : LinePragma) : Json :=
  .object [("file_name", .string p.fileName), ("line_number", ofNat p.lineNumber.toNat)]

/-- Writes a document. -/
def documentToJson (d : Document) : Json :=
  .object [("name", option .string d.name), ("start_line", ofNat d.startLine.toNat),
    ("text", .string d.text)]

/-- Writes a region of a document. -/
def sourceToJson (s : SourceContext) : Json :=
  .object [("document", documentToJson s.document), ("offset", ofNat s.offset.toNat),
    ("length", ofNat s.length.toNat)]

/-- The field of a source that is there. -/
def sourceField : Option SourceContext → List (String × Json)
  | some s => [("source", sourceToJson s)]
  | none => []

mutual

/-- Writes a type. -/
def TypeReference.toJson : TypeReference → Json
  | ⟨base, element, rank⟩ =>
    .object [("base_type", .string base), ("array_element_type", elementToJson element),
      ("array_rank", ofNat rank.toNat)]

/-- Writes the element type of an array, if there is one. -/
def elementToJson : Option TypeReference → Json
  | none => .null
  | some t => t.toJson

end

/-- The name of a direction. -/
def Direction.tag : Direction → String
  | .input => "In"
  | .output => "Out"
  | .reference => "Ref"

/-- The name of a binary operator. -/
def BinaryOperator.tag : BinaryOperator → String
  | .add => "Add"
  | .assign => "Assign"
  | .bitwiseAnd => "BitwiseAnd"
  | .bitwiseOr => "BitwiseOr"
  | .booleanAnd => "BooleanAnd"
  | .booleanOr => "BooleanOr"
  | .divide => "Divide"
  | .greaterThan => "GreaterThan"
  | .greaterThanOrEqual => "GreaterThanOrEqual"
  | .identityEquality => "IdentityEquality"
  | .identityInequality => "IdentityInequality"
  | .lessThan => "LessThan"
  | .lessThanOrEqual => "LessThanOrEqual"
  | .modulus => "Modulus"
  | .multiply => "Multiply"
  | .subtract => "Subtract"
  | .valueEquality => "ValueEquality"

/-- Writes a decimal number. -/
def decimalToJson (d : Decimal) : Json :=
  .object [("mantissa", ofInt d.mantissa.toInt), ("scale", ofNat d.scale.toNat)]

/-- A constant is an object with its kind as the only key; a kind without content stands alone. -/
def Primitive.toJson : Primitive → Json
  | .null => .string "Null"
  | .boolean v => .object [("Boolean", .bool v)]
  | .char v => .object [("Char", .string (String.ofList [v]))]
  | .sbyte v => .object [("SByte", ofInt v.toInt)]
  | .byte v => .object [("Byte", ofNat v.toNat)]
  | .int16 v => .object [("Int16", ofInt v.toInt)]
  | .uint16 v => .object [("UInt16", ofNat v.toNat)]
  | .int32 v => .object [("Int32", ofInt v.toInt)]
  | .uint32 v => .object [("UInt32", ofNat v.toNat)]
  | .int64 v => .object [("Int64", ofInt v.toInt)]
  | .uint64 v => .object [("UInt64", ofNat v.toNat)]
  | .single v => .object [("Single", .number (.single v))]
  | .double v => .object [("Double", .number (.double v))]
  | .decimal v => .object [("Decimal", decimalToJson v)]
  | .string v => .object [("String", .string v)]
  | .dateTime v => .object [("DateTime", ofInt v.toInt)]
  | .dbNull => .string "DbNull"

/-- A node of an open set: its kind, its fields, its source. -/
def nodeToJson (kind : String) (fields : List (String × Json)) (source : Option SourceContext) :
    Json :=
  .object (("kind", .string kind) :: fields ++ sourceField source)

mutual

/-- Writes an expression. -/
def Expr.toJson : Expr → Json
  | ⟨form, source⟩ => let (kind, fields) := form.toFields; nodeToJson kind fields source

/-- The kind of an expression and the fields beside it. -/
def ExprForm.toFields : ExprForm → String × List (String × Json)
  | .argumentRef name => ("ArgumentReference", [("parameter_name", .string name)])
  | .arrayCreate type initializers size sizeExpr =>
    ("ArrayCreate", [("create_type", type.toJson),
      ("initializers", .array (exprsToJson initializers)), ("size", ofInt size.toInt),
      ("size_expression", exprOptionToJson sizeExpr)])
  | .arrayIndexer target indices =>
    ("ArrayIndexer", [("target_object", target.toJson), ("indices", .array (exprsToJson indices))])
  | .baseRef => ("BaseReference", [])
  | .binary left op right =>
    ("BinaryOperator",
      [("left", left.toJson), ("operator", .string op.tag), ("right", right.toJson)])
  | .cast type operand =>
    ("Cast", [("target_type", type.toJson), ("expression", operand.toJson)])
  | .delegateCreate type target method =>
    ("DelegateCreate", [("delegate_type", type.toJson), ("target_object", target.toJson),
      ("method_name", .string method)])
  | .delegateInvoke target arguments =>
    ("DelegateInvoke", [("target_object", target.toJson),
      ("parameters", .array (exprsToJson arguments))])
  | .direction direction operand =>
    ("Direction", [("direction", .string direction.tag), ("expression", operand.toJson)])
  | .eventRef target name =>
    ("EventReference", [("target_object", target.toJson), ("event_name", .string name)])
  | .fieldRef target name =>
    ("FieldReference", [("target_object", exprOptionToJson target), ("field_name", .string name)])
  | .indexer target indices =>
    ("Indexer", [("target_object", target.toJson), ("indices", .array (exprsToJson indices))])
  | .methodInvoke target method arguments =>
    ("MethodInvoke", [("method", .object [("target_object", exprOptionToJson target),
      ("method_name", .string method)]), ("parameters", .array (exprsToJson arguments))])
  | .methodRef target method =>
    ("MethodReference", [("target_object", exprOptionToJson target),
      ("method_name", .string method)])
  | .objectCreate type arguments =>
    ("ObjectCreate", [("create_type", type.toJson), ("parameters", .array (exprsToJson arguments))])
  | .primitive value => ("Primitive", [("value", value.toJson)])
  | .propertyRef target name =>
    ("PropertyReference", [("target_object", target.toJson), ("property_name", .string name)])
  | .setterValue => ("PropertySetValueReference", [])
  | .snippet value => ("Snippet", [("value", .string value)])
  | .thisRef => ("ThisReference", [])
  | .typeOf type => ("TypeOf", [("type", type.toJson)])
  | .typeRef type => ("TypeReference", [("type", type.toJson)])
  | .variableRef name => ("VariableReference", [("variable_name", .string name)])
  | .unrecognized kind => (kind, [])

/-- Writes expressions. -/
def exprsToJson : List Expr → List Json
  | [] => []
  | e :: es => e.toJson :: exprsToJson es

/-- Writes an expression, if there is one. -/
def exprOptionToJson : Option Expr → Json
  | none => .null
  | some e => e.toJson

end

mutual

/-- Writes a statement. -/
def Stmt.toJson : Stmt → Json
  | ⟨form, source⟩ => let (kind, fields) := form.toFields; nodeToJson kind fields source

/-- The kind of a statement and the fields beside it. -/
def StmtForm.toFields : StmtForm → String × List (String × Json)
  | .assign left right => ("Assign", [("left", left.toJson), ("right", right.toJson)])
  | .attachEvent event listener =>
    ("AttachEvent", [("event", event.toJson), ("listener", listener.toJson)])
  | .removeEvent event listener =>
    ("RemoveEvent", [("event", event.toJson), ("listener", listener.toJson)])
  | .comment text => ("Comment", [("text", .string text)])
  | .condition condition whenTrue whenFalse =>
    ("Condition", [("condition", condition.toJson),
      ("true_statements", .array (stmtsToJson whenTrue)),
      ("false_statements", .array (stmtsToJson whenFalse))])
  | .expression expression => ("Expression", [("expression", expression.toJson)])
  | .goto label => ("Goto", [("label", .string label)])
  | .iteration init test increment body =>
    ("Iteration", [("init_statement", stmtOptionToJson init),
      ("test_expression", exprOptionToJson test),
      ("increment_statement", stmtOptionToJson increment),
      ("statements", .array (stmtsToJson body))])
  | .labeled label statement =>
    ("Labeled", [("label", .string label), ("statement", stmtOptionToJson statement)])
  | .methodReturn value => ("MethodReturn", [("expression", exprOptionToJson value)])
  | .snippet value pragma =>
    ("Snippet", [("value", .string value), ("line_pragma", option LinePragma.toJson pragma)])
  | .throwException value => ("ThrowException", [("to_throw", exprOptionToJson value)])
  | .tryCatchFinally body catches last =>
    ("TryCatchFinally", [("try_statements", .array (stmtsToJson body)),
      ("catch_clauses", .array (catchesToJson catches)),
      ("finally_statements", .array (stmtsToJson last))])
  | .variableDeclaration name type init =>
    ("VariableDeclaration", [("name", .string name), ("type", type.toJson),
      ("init_expression", exprOptionToJson init)])
  | .unrecognized kind => (kind, [])

/-- Writes a catch clause. -/
def CatchClause.toJson : CatchClause → Json
  | ⟨localName, exceptionType, statements⟩ =>
    .object [("local_name", .string localName),
      ("catch_exception_type", option TypeReference.toJson exceptionType),
      ("statements", .array (stmtsToJson statements))]

/-- Writes statements. -/
def stmtsToJson : List Stmt → List Json
  | [] => []
  | s :: ss => s.toJson :: stmtsToJson ss

/-- Writes a statement, if there is one. -/
def stmtOptionToJson : Option Stmt → Json
  | none => .null
  | some s => s.toJson

/-- Writes catch clauses. -/
def catchesToJson : List CatchClause → List Json
  | [] => []
  | c :: cs => c.toJson :: catchesToJson cs

end

/-- Writes an argument of an attribute. -/
def AttributeArgument.toJson (a : AttributeArgument) : Json :=
  .object [("name", option .string a.name), ("value", a.value.toJson)]

/-- Writes an attribute. -/
def Attribute.toJson (a : Attribute) : Json :=
  .object [("name", .string a.name), ("arguments", .array (a.arguments.map (·.toJson)))]

/-- Writes attributes. -/
def attributesToJson (as : List Attribute) : Json := .array (as.map (·.toJson))

/-- Writes types. -/
def typesToJson (ts : List TypeReference) : Json := .array (ts.map (·.toJson))

/-- Writes a parameter. -/
def Parameter.toJson (p : Parameter) : Json :=
  .object [("name", .string p.name), ("type", p.type.toJson),
    ("direction", .string p.direction.tag),
    ("custom_attributes", attributesToJson p.customAttributes)]

/-- Writes parameters. -/
def parametersToJson (ps : List Parameter) : Json := .array (ps.map (·.toJson))

/-- The fields of a field declaration. -/
def FieldDeclaration.toFields (d : FieldDeclaration) : List (String × Json) :=
  [("name", .string d.name), ("attributes", ofNat d.attributes.bits.toNat),
   ("type", d.type.toJson), ("init_expression", exprOptionToJson d.init),
   ("custom_attributes", attributesToJson d.customAttributes)]

/-- The fields of a method declaration. -/
def MethodDeclaration.toFields (d : MethodDeclaration) : List (String × Json) :=
  [("name", .string d.name), ("attributes", ofNat d.attributes.bits.toNat),
   ("parameters", parametersToJson d.parameters),
   ("return_type", option TypeReference.toJson d.returnType),
   ("return_type_custom_attributes", attributesToJson d.returnAttributes),
   ("statements", .array (stmtsToJson d.statements)),
   ("implementation_types", typesToJson d.implementationTypes),
   ("private_implementation_type", option TypeReference.toJson d.privateImplementationType),
   ("custom_attributes", attributesToJson d.customAttributes)]

/-- The fields of a constructor declaration. -/
def ConstructorDeclaration.toFields (d : ConstructorDeclaration) : List (String × Json) :=
  [("attributes", ofNat d.attributes.bits.toNat), ("parameters", parametersToJson d.parameters),
   ("statements", .array (stmtsToJson d.statements)),
   ("base_constructor_args", .array (exprsToJson d.baseArguments)),
   ("chained_constructor_args", .array (exprsToJson d.chainedArguments)),
   ("custom_attributes", attributesToJson d.customAttributes)]

/-- The fields of a property declaration. -/
def PropertyDeclaration.toFields (d : PropertyDeclaration) : List (String × Json) :=
  [("name", .string d.name), ("attributes", ofNat d.attributes.bits.toNat),
   ("type", d.type.toJson), ("parameters", parametersToJson d.parameters),
   ("has_get", .bool d.hasGet), ("has_set", .bool d.hasSet),
   ("get_statements", .array (stmtsToJson d.getStatements)),
   ("set_statements", .array (stmtsToJson d.setStatements)),
   ("implementation_types", typesToJson d.implementationTypes),
   ("private_implementation_type", option TypeReference.toJson d.privateImplementationType),
   ("custom_attributes", attributesToJson d.customAttributes)]

/-- The fields of an event declaration. -/
def EventDeclaration.toFields (d : EventDeclaration) : List (String × Json) :=
  [("name", .string d.name), ("attributes", ofNat d.attributes.bits.toNat),
   ("type", d.type.toJson), ("implementation_types", typesToJson d.implementationTypes),
   ("private_implementation_type", option TypeReference.toJson d.privateImplementationType),
   ("custom_attributes", attributesToJson d.customAttributes)]

/-- Writes the kind of a type. -/
def TypeKind.toJson : TypeKind → Json
  | .classType => .object [("kind", .string "Class")]
  | .structType => .object [("kind", .string "Struct")]
  | .interfaceType => .object [("kind", .string "Interface")]
  | .enumType => .object [("kind", .string "Enum")]
  | .delegateType parameters returnType =>
    .object [("kind", .string "Delegate"), ("parameters", parametersToJson parameters),
      ("return_type", option TypeReference.toJson returnType)]

mutual

/-- Writes a member. -/
def Member.toJson : Member → Json
  | ⟨form, source⟩ => let (kind, fields) := form.toFields; nodeToJson kind fields source

/-- The kind of a member and the fields beside it. -/
def MemberForm.toFields : MemberForm → String × List (String × Json)
  | .field d => ("Field", d.toFields)
  | .method d => ("Method", d.toFields)
  | .entryPoint d => ("EntryPoint", d.toFields)
  | .constructor d => ("Constructor", d.toFields)
  | .property d => ("Property", d.toFields)
  | .event d => ("Event", d.toFields)
  | .snippet text pragma =>
    ("Snippet", [("text", .string text), ("line_pragma", option LinePragma.toJson pragma)])
  | .nestedType d => ("NestedType", d.toFields)
  | .unrecognized kind => (kind, [])

/-- The fields of a type declaration. -/
def TypeDeclaration.toFields : TypeDeclaration → List (String × Json)
  | ⟨name, kind, attributes, baseTypes, members, customAttributes, source⟩ =>
    [("name", .string name), ("type_kind", kind.toJson),
     ("type_attributes", ofNat attributes.bits.toNat), ("base_types", typesToJson baseTypes),
     ("members", .array (membersToJson members)),
     ("custom_attributes", attributesToJson customAttributes)] ++ sourceField source

/-- Writes members. -/
def membersToJson : List Member → List Json
  | [] => []
  | m :: ms => m.toJson :: membersToJson ms

end

/-- Writes the declaration of a type. -/
def TypeDeclaration.toJson (d : TypeDeclaration) : Json := .object d.toFields

/-- Writes a namespace. -/
def Namespace.toJson (n : Namespace) : Json :=
  .object ([("name", .string n.name), ("imports", strings n.imports),
    ("types", .array (n.types.map (·.toJson)))] ++ sourceField n.source)

/-- Writes a unit that is source text as it stands. -/
def UnitSnippet.toJson (s : UnitSnippet) : Json :=
  .object [("value", .string s.value), ("line_pragma", option LinePragma.toJson s.pragma)]

/-- Writes a whole code tree. -/
def CompileUnit.toJson (u : CompileUnit) : Json :=
  .object [("namespaces", .array (u.namespaces.map (·.toJson))),
    ("referenced_assemblies", strings u.referencedAssemblies),
    ("assembly_custom_attributes", attributesToJson u.assemblyAttributes),
    ("defined_symbols", option strings u.definedSymbols),
    ("snippet", option UnitSnippet.toJson u.snippet)]

/-- The written form of a unit. -/
def CompileUnit.write (u : CompileUnit) : String := u.toJson.pretty

end MiddleEnd.CodeTree
