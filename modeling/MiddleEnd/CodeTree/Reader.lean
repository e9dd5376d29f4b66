/-
  Reading a code tree from its JSON form. Closed records refuse a tree of the wrong shape. A node
  of an open set whose known shape cannot be read is kept as unrecognized if it names its kind.
-/
import MiddleEnd.CodeTree.Basic
import MiddleEnd.Json.Decode

namespace MiddleEnd.CodeTree.Reader

open Decode

/-- Reads the file and line that a snippet is said to come from. -/
def linePragma : (depth : Nat) → Draft → Decoded LinePragma
  | 0, d => .error (tooDeep d)
  | _ + 1, d => record ["file_name", "line_number"] step ⟨"", 0⟩ d
where
  step (p : LinePragma) (key : String) (d : Draft) : Decoded LinePragma :=
    match key with
    | "file_name" => do return { p with fileName := ← string d }
    | "line_number" => do return { p with lineNumber := ← uint32 d }
    | _ => .ok p

/-- Reads a document. -/
def document : (depth : Nat) → Draft → Decoded Document
  | 0, d => .error (tooDeep d)
  | _ + 1, d => record ["start_line", "text"] step ⟨none, 0, ""⟩ d
where
  step (c : Document) (key : String) (d : Draft) : Decoded Document :=
    match key with
    | "name" => do return { c with name := ← optional string d }
    | "start_line" => do return { c with startLine := ← uint32 d }
    | "text" => do return { c with text := ← string d }
    | _ => .ok c

/-- Reads a region of a document. -/
def sourceContext : (depth : Nat) → Draft → Decoded SourceContext
  | 0, d => .error (tooDeep d)
  | depth + 1, d => record ["document", "offset", "length"] (step depth) ⟨⟨none, 0, ""⟩, 0, 0⟩ d
where
  step (depth : Nat) (s : SourceContext) (key : String) (d : Draft) : Decoded SourceContext :=
    match key with
    | "document" => do return { s with document := ← document depth d }
    | "offset" => do return { s with offset := ← uint64 d }
    | "length" => do return { s with length := ← uint64 d }
    | _ => .ok s

/-- Reads a type; one that is no array has no element type. -/
def typeReference : (depth : Nat) → Draft → Decoded TypeReference
  | 0, d => .error (tooDeep d)
  | depth + 1, d => record [] (step (typeReference depth)) ⟨"", none, 0⟩ d
where
  step (element : Draft → Decoded TypeReference) (t : TypeReference) (key : String) (d : Draft) :
      Decoded TypeReference :=
    match key with
    | "base_type" => do return { t with baseType := ← string d }
    | "array_element_type" => do return { t with arrayElement := ← optional element d }
    | "array_rank" => do return { t with arrayRank := ← uint32 d }
    | _ => .ok t

/-- Reads the direction of a parameter. -/
def directionOf : String → Decoded Direction
  | "In" => .ok .input
  | "Out" => .ok .output
  | "Ref" => .ok .reference
  | _ => .error .mismatch

/-- Reads a binary operator. -/
def operatorOf : String → Decoded BinaryOperator
  | "Add" => .ok .add
  | "Assign" => .ok .assign
  | "BitwiseAnd" => .ok .bitwiseAnd
  | "BitwiseOr" => .ok .bitwiseOr
  | "BooleanAnd" => .ok .booleanAnd
  | "BooleanOr" => .ok .booleanOr
  | "Divide" => .ok .divide
  | "GreaterThan" => .ok .greaterThan
  | "GreaterThanOrEqual" => .ok .greaterThanOrEqual
  | "IdentityEquality" => .ok .identityEquality
  | "IdentityInequality" => .ok .identityInequality
  | "LessThan" => .ok .lessThan
  | "LessThanOrEqual" => .ok .lessThanOrEqual
  | "Modulus" => .ok .modulus
  | "Multiply" => .ok .multiply
  | "Subtract" => .ok .subtract
  | "ValueEquality" => .ok .valueEquality
  | _ => .error .mismatch

/-- A variant without content, by its name. -/
def named (of : String → Decoded α) (d : Draft) : Decoded α := do
  let (name, content) ← variant d
  let a ← of name
  noContent content
  return a

/-- Reads a decimal number. -/
def decimal : (depth : Nat) → Draft → Decoded Decimal
  | 0, d => .error (tooDeep d)
  | _ + 1, d => record ["mantissa", "scale"] step ⟨0, 0⟩ d
where
  step (v : Decimal) (key : String) (d : Draft) : Decoded Decimal :=
    match key with
    | "mantissa" => do return { v with mantissa := ← int64 d }
    | "scale" => do return { v with scale := ← uint8 d }
    | _ => .ok v

/-- Reads a value that has a content, by the name of its type. -/
def primitiveContent (depth : Nat) (d : Draft) : String → Decoded Primitive
  | "Boolean" => .boolean <$> bool d
  | "Char" => .char <$> char d
  | "SByte" => .sbyte <$> int8 d
  | "Byte" => .byte <$> uint8 d
  | "Int16" => .int16 <$> int16 d
  | "UInt16" => .uint16 <$> uint16 d
  | "Int32" => .int32 <$> int32 d
  | "UInt32" => .uint32 <$> uint32 d
  | "Int64" => .int64 <$> int64 d
  | "UInt64" => .uint64 <$> uint64 d
  | "Single" => .single <$> single d
  | "Double" => .double <$> double d
  | "Decimal" => .decimal <$> decimal depth d
  | "String" => .string <$> string d
  | "DateTime" => .dateTime <$> int64 d
  | _ => .error .mismatch

/-- Reads a value; some have no content. -/
def primitive (depth : Nat) (d : Draft) : Decoded Primitive := do
  match ← variant d with
  | ("Null", content) => do noContent content; return .null
  | ("DbNull", content) => do noContent content; return .dbNull
  | (name, some content) => primitiveContent (depth - 1) content name
  | (_, none) => throw .mismatch

/-- A node of an open set. Its source is read on its own; everything else is taken in whole before
    the known shapes are tried. -/
def openNode (depth : Nat) (known : String → Fields → Decoded α) (other : String → α) :
    Draft → Decoded (α × Option SourceContext)
  | .object fs stop => do
    let source ← foldFields (fun source key d =>
      if key = "source" then optional (sourceContext depth) d
      else do
        whole depth d
        return source) none fs
    finish stop ()
    match fs.lookup (some "kind") with
    | some (.string kind) =>
      match known kind fs with
      | .ok form => return (form, source)
      | .error _ => return (other kind, source)
    | _ => throw .mismatch
  | d => .error (refusal d)

/-- The known shapes of expressions; children are read by the given decoders. -/
def exprForm (depth : Nat) (expr : Draft → Decoded Expr) (exprs : Draft → Decoded (List Expr))
    (method : Draft → Decoded (Option Expr × String)) (kind : String) (fs : Fields) :
    Decoded ExprForm :=
  let type := typeReference depth
  match kind with
  | "ArgumentReference" => do return .argumentRef (← field fs "parameter_name" string)
  | "ArrayCreate" => do
    return .arrayCreate (← field fs "create_type" type) (← fieldD fs "initializers" exprs [])
      (← fieldD fs "size" int32 0) (← field? fs "size_expression" expr)
  | "ArrayIndexer" => do
    return .arrayIndexer (← field fs "target_object" expr) (← fieldD fs "indices" exprs [])
  | "BaseReference" => .ok .baseRef
  | "BinaryOperator" => do
    return .binary (← field fs "left" expr) (← field fs "operator" (named operatorOf))
      (← field fs "right" expr)
  | "Cast" => do return .cast (← field fs "target_type" type) (← field fs "expression" expr)
  | "DelegateCreate" => do
    return .delegateCreate (← field fs "delegate_type" type) (← field fs "target_object" expr)
      (← field fs "method_name" string)
  | "DelegateInvoke" => do
    return .delegateInvoke (← field fs "target_object" expr) (← fieldD fs "parameters" exprs [])
  | "Direction" => do
    return .direction (← field fs "direction" (named directionOf)) (← field fs "expression" expr)
  | "EventReference" => do
    return .eventRef (← field fs "target_object" expr) (← field fs "event_name" string)
  | "FieldReference" => do
    return .fieldRef (← field? fs "target_object" expr) (← field fs "field_name" string)
  | "Indexer" => do
    return .indexer (← field fs "target_object" expr) (← fieldD fs "indices" exprs [])
  | "MethodInvoke" => do
    let (target, name) ← field fs "method" method
    return .methodInvoke target name (← fieldD fs "parameters" exprs [])
  | "MethodReference" => do
    return .methodRef (← field? fs "target_object" expr) (← field fs "method_name" string)
  | "ObjectCreate" => do
    return .objectCreate (← field fs "create_type" type) (← fieldD fs "parameters" exprs [])
  | "Primitive" => do return .primitive (← field fs "value" (primitive depth))
  | "PropertyReference" => do
    return .propertyRef (← field fs "target_object" expr) (← field fs "property_name" string)
  | "PropertySetValueReference" => .ok .setterValue
  | "Snippet" => do return .snippet (← field fs "value" string)
  | "ThisReference" => .ok .thisRef
  | "TypeOf" => do return .typeOf (← field fs "type" type)
  | "TypeReference" => do return .typeRef (← field fs "type" type)
  | "VariableReference" => do return .variableRef (← field fs "variable_name" string)
  | _ => .error .mismatch

/-- Reads a field of a reference to a method. -/
def methodStep (expr : Draft → Decoded Expr) (m : Option Expr × String) (key : String)
    (d : Draft) : Decoded (Option Expr × String) :=
  match key with
  | "target_object" => do return (← optional expr d, m.2)
  | "method_name" => do return (m.1, ← string d)
  | _ => .ok m

mutual

/-- Reads an expression. -/
def expr : (depth : Nat) → Draft → Decoded Expr
  | 0, d => .error (tooDeep d)
  | depth + 1, d => do
    let (form, source) ← openNode depth
      (exprForm depth (expr depth) (exprs depth) (methodReference depth)) .unrecognized d
    return { form, source }

/-- Reads expressions. -/
def exprs : (depth : Nat) → Draft → Decoded (List Expr)
  | 0, .array .. => .error .malformed
  | 0, d => .error (refusal d)
  | depth + 1, d => items (expr depth) d

/-- A method by its name, perhaps through an object. -/
def methodReference : (depth : Nat) → Draft → Decoded (Option Expr × String)
  | 0, d => .error (tooDeep d)
  | depth + 1, d => record ["method_name"] (methodStep (expr depth)) (none, "") d

end

/-- The known shapes of statements; children are read by the given decoders. -/
def stmtForm (depth : Nat) (stmt : Draft → Decoded Stmt) (stmts : Draft → Decoded (List Stmt))
    (catches : Draft → Decoded (List CatchClause)) (kind : String) (fs : Fields) :
    Decoded StmtForm :=
  let expr := expr depth
  match kind with
  | "Assign" => do return .assign (← field fs "left" expr) (← field fs "right" expr)
  | "AttachEvent" => do
    return .attachEvent (← field fs "event" expr) (← field fs "listener" expr)
  | "RemoveEvent" => do
    return .removeEvent (← field fs "event" expr) (← field fs "listener" expr)
  | "Comment" => do return .comment (← fieldD fs "text" string "")
  | "Condition" => do
    return .condition (← field fs "condition" expr) (← fieldD fs "true_statements" stmts [])
      (← fieldD fs "false_statements" stmts [])
  | "Expression" => do return .expression (← field fs "expression" expr)
  | "Goto" => do return .goto (← field fs "label" string)
  | "Iteration" => do
    return .iteration (← field? fs "init_statement" stmt) (← field? fs "test_expression" expr)
      (← field? fs "increment_statement" stmt) (← fieldD fs "statements" stmts [])
  | "Labeled" => do return .labeled (← field fs "label" string) (← field? fs "statement" stmt)
  | "MethodReturn" => do return .methodReturn (← field? fs "expression" expr)
  | "Snippet" => do
    return .snippet (← field fs "value" string) (← field? fs "line_pragma" (linePragma depth))
  | "ThrowException" => do return .throwException (← field? fs "to_throw" expr)
  | "TryCatchFinally" => do
    return .tryCatchFinally (← fieldD fs "try_statements" stmts [])
      (← fieldD fs "catch_clauses" catches []) (← fieldD fs "finally_statements" stmts [])
  | "VariableDeclaration" => do
    return .variableDeclaration (← field fs "name" string) (← field fs "type" (typeReference depth))
      (← field? fs "init_expression" expr)
  | _ => .error .mismatch

/-- Reads a field of a catch clause. -/
def catchStep (depth : Nat) (stmts : Draft → Decoded (List Stmt)) (c : CatchClause) (key : String)
    (d : Draft) : Decoded CatchClause :=
  match key with
  | "local_name" => do return { c with localName := ← string d }
  | "catch_exception_type" => do
    return { c with exceptionType := ← optional (typeReference depth) d }
  | "statements" => do return { c with statements := ← stmts d }
  | _ => .ok c

mutual

/-- Reads a statement. -/
def stmt : (depth : Nat) → Draft → Decoded Stmt
  | 0, d => .error (tooDeep d)
  | depth + 1, d => do
    let (form, source) ← openNode depth
      (stmtForm depth (stmt depth) (stmts depth) (catchClauses depth)) .unrecognized d
    return { form, source }

/-- Reads statements. -/
def stmts : (depth : Nat) → Draft → Decoded (List Stmt)
  | 0, .array .. => .error .malformed
  | 0, d => .error (refusal d)
  | depth + 1, d => items (stmt depth) d

/-- Reads catch clauses. -/
def catchClauses : (depth : Nat) → Draft → Decoded (List CatchClause)
  | 0, .array .. => .error .malformed
  | 0, d => .error (refusal d)
  | depth + 1, d => items (catchClause depth) d

/-- Reads a catch clause. -/
def catchClause : (depth : Nat) → Draft → Decoded CatchClause
  | 0, d => .error (tooDeep d)
  | depth + 1, d => record ["local_name"] (catchStep depth (stmts depth)) ⟨"", none, []⟩ d

end

/-- Reads an argument of an attribute. -/
def attributeArgument : (depth : Nat) → Draft → Decoded AttributeArgument
  | 0, d => .error (tooDeep d)
  | depth + 1, d => record ["value"] (step depth) ⟨none, { form := .unrecognized "" }⟩ d
where
  step (depth : Nat) (a : AttributeArgument) (key : String) (d : Draft) :
      Decoded AttributeArgument :=
    match key with
    | "name" => do return { a with name := ← optional string d }
    | "value" => do return { a with value := ← expr depth d }
    | _ => .ok a

/-- Reads an attribute. -/
def attributeUse : (depth : Nat) → Draft → Decoded Attribute
  | 0, d => .error (tooDeep d)
  | depth + 1, d => record ["name"] (step depth) ⟨"", []⟩ d
where
  step (depth : Nat) (a : Attribute) (key : String) (d : Draft) : Decoded Attribute :=
    match key with
    | "name" => do return { a with name := ← string d }
    | "arguments" => do return { a with arguments := ← list attributeArgument depth d }
    | _ => .ok a

/-- Reads attributes. -/
def attributes (depth : Nat) (d : Draft) : Decoded (List Attribute) := list attributeUse depth d

/-- Reads types. -/
def typeReferences (depth : Nat) (d : Draft) : Decoded (List TypeReference) :=
  list typeReference depth d

/-- Reads a parameter. -/
def parameter : (depth : Nat) → Draft → Decoded Parameter
  | 0, d => .error (tooDeep d)
  | depth + 1, d =>
    record ["name", "type"] (step depth) { name := "", type := .named "" } d
where
  step (depth : Nat) (p : Parameter) (key : String) (d : Draft) : Decoded Parameter :=
    match key with
    | "name" => do return { p with name := ← string d }
    | "type" => do return { p with type := ← typeReference depth d }
    | "direction" => do return { p with direction := ← named directionOf d }
    | "custom_attributes" => do return { p with customAttributes := ← attributes depth d }
    | _ => .ok p

/-- Reads parameters. -/
def parameters (depth : Nat) (d : Draft) : Decoded (List Parameter) := list parameter depth d

/-- Reads the bits that go with a member. -/
def memberAttributes (d : Draft) : Decoded MemberAttributes := do return ⟨← uint32 d⟩

/-- Reads the declaration of a field. -/
def fieldDeclaration (depth : Nat) (fs : Fields) : Decoded FieldDeclaration := do
  return {
    name := ← field fs "name" string
    attributes := ← fieldD fs "attributes" memberAttributes {}
    type := ← field fs "type" (typeReference depth)
    init := ← field? fs "init_expression" (expr depth)
    customAttributes := ← fieldD fs "custom_attributes" (attributes depth) [] }

/-- Reads the declaration of a method. -/
def methodDeclaration (depth : Nat) (fs : Fields) : Decoded MethodDeclaration := do
  return {
    name := ← field fs "name" string
    attributes := ← fieldD fs "attributes" memberAttributes {}
    parameters := ← fieldD fs "parameters" (parameters depth) []
    returnType := ← field? fs "return_type" (typeReference depth)
    returnAttributes := ← fieldD fs "return_type_custom_attributes" (attributes depth) []
    statements := ← fieldD fs "statements" (stmts depth) []
    implementationTypes := ← fieldD fs "implementation_types" (typeReferences depth) []
    privateImplementationType :=
      ← field? fs "private_implementation_type" (typeReference depth)
    customAttributes := ← fieldD fs "custom_attributes" (attributes depth) [] }

/-- Reads the declaration of a constructor. -/
def constructorDeclaration (depth : Nat) (fs : Fields) : Decoded ConstructorDeclaration := do
  return {
    attributes := ← fieldD fs "attributes" memberAttributes {}
    parameters := ← fieldD fs "parameters" (parameters depth) []
    statements := ← fieldD fs "statements" (stmts depth) []
    baseArguments := ← fieldD fs "base_constructor_args" (exprs depth) []
    chainedArguments := ← fieldD fs "chained_constructor_args" (exprs depth) []
    customAttributes := ← fieldD fs "custom_attributes" (attributes depth) [] }

/-- Reads the declaration of a property. -/
def propertyDeclaration (depth : Nat) (fs : Fields) : Decoded PropertyDeclaration := do
  return {
    name := ← field fs "name" string
    attributes := ← fieldD fs "attributes" memberAttributes {}
    type := ← field fs "type" (typeReference depth)
    parameters := ← fieldD fs "parameters" (parameters depth) []
    hasGet := ← fieldD fs "has_get" bool false
    hasSet := ← fieldD fs "has_set" bool false
    getStatements := ← fieldD fs "get_statements" (stmts depth) []
    setStatements := ← fieldD fs "set_statements" (stmts depth) []
    implementationTypes := ← fieldD fs "implementation_types" (typeReferences depth) []
    privateImplementationType :=
      ← field? fs "private_implementation_type" (typeReference depth)
    customAttributes := ← fieldD fs "custom_attributes" (attributes depth) [] }

/-- Reads the declaration of an event. -/
def eventDeclaration (depth : Nat) (fs : Fields) : Decoded EventDeclaration := do
  return {
    name := ← field fs "name" string
    attributes := ← fieldD fs "attributes" memberAttributes {}
    type := ← field fs "type" (typeReference depth)
    implementationTypes := ← fieldD fs "implementation_types" (typeReferences depth) []
    privateImplementationType :=
      ← field? fs "private_implementation_type" (typeReference depth)
    customAttributes := ← fieldD fs "custom_attributes" (attributes depth) [] }

/-- The kind of a type, looked at as soon as it is met; the rest is taken in whole. -/
def kindName : Draft → Decoded String
  | .string name =>
    if name ∈ ["Class", "Struct", "Interface", "Enum", "Delegate"] then .ok name
    else .error .mismatch
  | d => .error (refusal d)

/-- Reads the kind of a type, told by its field `kind`. -/
def typeKind : (depth : Nat) → Draft → Decoded TypeKind
  | depth + 1, .object fs stop => do
    let name ← foldFields (fun name key d =>
      if key = "kind" then some <$> kindName d
      else do
        whole depth d
        return name) none fs
    finish stop ()
    match name with
    | some "Class" => return .classType
    | some "Struct" => return .structType
    | some "Interface" => return .interfaceType
    | some "Enum" => return .enumType
    | some _ =>
      return .delegateType (← fieldD fs "parameters" (parameters depth) [])
        (← field? fs "return_type" (typeReference depth))
    | none => throw .mismatch
  | 0, d => .error (tooDeep d)
  | _ + 1, d => .error (refusal d)

/-- The fields of a type declaration other than its source. -/
def typeStep (depth : Nat) (members : Draft → Decoded (List Member)) (t : TypeDeclaration)
    (key : String) (d : Draft) : Decoded TypeDeclaration :=
  match key with
  | "name" => do return { t with name := ← string d }
  | "type_kind" => do return { t with kind := ← typeKind depth d }
  | "type_attributes" => do return { t with attributes := ⟨← uint32 d⟩ }
  | "base_types" => do return { t with baseTypes := ← typeReferences depth d }
  | "members" => do return { t with members := ← members d }
  | "custom_attributes" => do return { t with customAttributes := ← attributes depth d }
  | _ => .ok t

/-- The fields that a type declaration has to have. -/
def typeKeys : List String := ["name", "type_kind"]

/-- The type declaration that the fields which are read are put into. -/
def emptyType : TypeDeclaration := { name := "", kind := .classType }

/-- The known shapes of members; those of a nested type are read by the given decoder. -/
def memberForm (depth : Nat) (members : Draft → Decoded (List Member)) (kind : String)
    (fs : Fields) : Decoded MemberForm :=
  match kind with
  | "Field" => .field <$> fieldDeclaration depth fs
  | "Method" => .method <$> methodDeclaration depth fs
  | "EntryPoint" => .entryPoint <$> methodDeclaration depth fs
  | "Constructor" => .constructor <$> constructorDeclaration depth fs
  | "Property" => .property <$> propertyDeclaration depth fs
  | "Event" => .event <$> eventDeclaration depth fs
  | "Snippet" => do
    return .snippet (← field fs "text" string) (← field? fs "line_pragma" (linePragma depth))
  | "NestedType" => .nestedType <$> gather typeKeys (typeStep depth members) emptyType fs none
  | _ => .error .mismatch

mutual

/-- Reads a member. -/
def member : (depth : Nat) → Draft → Decoded Member
  | 0, d => .error (tooDeep d)
  | depth + 1, d => do
    let (form, source) ← openNode depth (memberForm depth (members depth)) .unrecognized d
    return { form, source }

/-- Reads members. -/
def members : (depth : Nat) → Draft → Decoded (List Member)
  | 0, .array .. => .error .malformed
  | 0, d => .error (refusal d)
  | depth + 1, d => items (member depth) d

end

/-- Reads the declaration of a type. -/
def typeDeclaration : (depth : Nat) → Draft → Decoded TypeDeclaration
  | 0, d => .error (tooDeep d)
  | depth + 1, d => record typeKeys (step depth) emptyType d
where
  step (depth : Nat) (t : TypeDeclaration) (key : String) (d : Draft) :
      Decoded TypeDeclaration :=
    match key with
    | "source" => do return { t with source := ← optional (sourceContext depth) d }
    | key => typeStep depth (members depth) t key d

/-- Reads a namespace. -/
def namespaceNode : (depth : Nat) → Draft → Decoded Namespace
  | 0, d => .error (tooDeep d)
  | depth + 1, d => record ["name"] (step depth) { name := "" } d
where
  step (depth : Nat) (n : Namespace) (key : String) (d : Draft) : Decoded Namespace :=
    match key with
    | "name" => do return { n with name := ← string d }
    | "imports" => do return { n with imports := ← list (fun _ => string) depth d }
    | "types" => do return { n with types := ← list typeDeclaration depth d }
    | "source" => do return { n with source := ← optional (sourceContext depth) d }
    | _ => .ok n

/-- Reads a unit that is source text as it stands. -/
def unitSnippet : (depth : Nat) → Draft → Decoded UnitSnippet
  | 0, d => .error (tooDeep d)
  | depth + 1, d => record ["value"] (step depth) ⟨"", none⟩ d
where
  step (depth : Nat) (s : UnitSnippet) (key : String) (d : Draft) : Decoded UnitSnippet :=
    match key with
    | "value" => do return { s with value := ← string d }
    | "line_pragma" => do return { s with pragma := ← optional (linePragma depth) d }
    | _ => .ok s

/-- Reads a whole code tree. -/
def compileUnit : (depth : Nat) → Draft → Decoded CompileUnit
  | 0, d => .error (tooDeep d)
  | depth + 1, d => record [] (step depth) {} d
where
  step (depth : Nat) (u : CompileUnit) (key : String) (d : Draft) : Decoded CompileUnit :=
    match key with
    | "namespaces" => do return { u with namespaces := ← list namespaceNode depth d }
    | "referenced_assemblies" => do
      return { u with referencedAssemblies := ← list (fun _ => string) depth d }
    | "assembly_custom_attributes" => do
      return { u with assemblyAttributes := ← attributes depth d }
    | "defined_symbols" => do
      return { u with definedSymbols := ← optional (list (fun _ => string) depth) d }
    | "snippet" => do return { u with snippet := ← optional (unitSnippet depth) d }
    | _ => .ok u

end Reader

/-- The unit that a text describes. -/
def CompileUnit.read (t : String) : Decoded CompileUnit := Decode.text Reader.compileUnit t

end MiddleEnd.CodeTree
