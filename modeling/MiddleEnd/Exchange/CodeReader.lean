/-
  Reading code from its exchange form. A literal that states no static type has that of its value.
-/
import MiddleEnd.Code.Text
import MiddleEnd.Exchange.Fields
import MiddleEnd.Number.FloatRead
import MiddleEnd.Text.Split

namespace MiddleEnd.Exchange.Read

/-- The numbers of a module and of a type in it. -/
def typeIdOf (cs : List Char) : Option TypeId :=
  match Text.pieces ':' cs with
  | [m, i] => do
    return ⟨Index.ofNat (← (String.ofList m).toNat?), Index.ofNat (← (String.ofList i).toNat?)⟩
  | _ => none

/-- A type, and the position of a member in it. -/
def memberRefOf (cs : List Char) : Option MemberRef :=
  match Text.pieces '#' cs with
  | [t, n] => do return ⟨← typeIdOf t, ← (String.ofList n).toNat?⟩
  | _ => none

/-- Reads an id of a type. -/
def typeId (d : Draft) : Decoded TypeId := do
  match typeIdOf (← Decode.string d).toList with
  | some id => return id
  | none => throw .mismatch

/-- Reads a reference to a member. -/
def memberRef (d : Draft) : Decoded MemberRef := do
  match memberRefOf (← Decode.string d).toList with
  | some ref => return ref
  | none => throw .mismatch

/-- Reads a region with the document it is in. -/
def source : Draft → Decoded SourceContext
  | .array [name, line, text, offset, length] _ => do
    return {
      document := ⟨← Decode.optional Decode.string name, (← nat line).toUInt32,
        ← Decode.string text⟩
      offset := (← nat offset).toUInt64
      length := (← nat length).toUInt64 }
  | _ => .error .mismatch

/-- Reads a floating-point number from its text. -/
def float (f : BinaryFormat) (d : Draft) : Decoded (Binary f) := do
  match Binary.ofText? f (← Decode.string d) with
  | some v => return v
  | none => throw .mismatch

/-- A tag, and what stands behind it. -/
def tagged : Draft → Decoded (String × List Draft)
  | .array (.string tag :: items) _ => .ok (tag, items)
  | _ => .error .mismatch

/-- Reads a literal. -/
def literal (d : Draft) : Decoded Literal := do
  match ← tagged d with
  | ("Null", []) => return .null
  | ("DbNull", []) => return .dbNull
  | ("Boolean", [v]) => return .boolean (← Decode.bool v)
  | ("Char", [v]) => return .char (← Decode.char v)
  | ("Int8", [v]) => return .int8 (Int8.ofInt (← int v))
  | ("UInt8", [v]) => return .uint8 (← nat v).toUInt8
  | ("Int16", [v]) => return .int16 (Int16.ofInt (← int v))
  | ("UInt16", [v]) => return .uint16 (← nat v).toUInt16
  | ("Int32", [v]) => return .int32 (Int32.ofInt (← int v))
  | ("UInt32", [v]) => return .uint32 (← nat v).toUInt32
  | ("Int64", [v]) => return .int64 (Int64.ofInt (← int v))
  | ("UInt64", [v]) => return .uint64 (← nat v).toUInt64
  | ("DateTime", [v]) => return .dateTime (Int64.ofInt (← int v))
  | ("Single", [v]) => return .single (← float .single v)
  | ("Double", [v]) => return .double (← float .double v)
  | ("Decimal", [m, s]) => return .decimal ⟨Int64.ofInt (← int m), (← nat s).toUInt8⟩
  | ("String", [v]) => return .string (← Decode.string v)
  | _ => throw .mismatch

/-- Reads a binary operator from its sign. -/
def binaryOp (d : Draft) : Decoded BinaryOp := do
  match BinaryOp.ofText? (← Decode.string d) with
  | some op => return op
  | none => throw .mismatch

/-- Reads a built-in type from its name. -/
def primitiveType (d : Draft) : Decoded PrimitiveType := do
  match PrimitiveType.ofText? (← Decode.string d) with
  | some p => return p
  | none => throw .mismatch

/-- The static type of an expression. -/
def staticType (form : ExprForm) (given : Option TypeRef) : Option TypeRef :=
  match form, given with
  | .literal l, none => some (.primitive l.type)
  | _, given => given

/-- Readers for the parts of a node. -/
structure Readers where
  typeRef : Draft → Decoded TypeRef
  expr : Draft → Decoded Expr
  stmt : Draft → Decoded Stmt
  block : Draft → Decoded Block

namespace Readers

variable (parts : Readers)

/-- Reads a type, given readers for its parts. -/
def readType (d : Draft) : Decoded TypeRef := do
  match ← tagged d with
  | ("prim", [name]) => return .primitive (← primitiveType name)
  | ("named", [e]) => return .named (← parts.expr e)
  | ("array", [t, rank]) => return .array (← parts.typeRef t) (← nat rank).toUInt32
  | ("ref", [t]) => return .reference (← parts.typeRef t)
  | ("bound", [id]) => return .bound (← typeId id)
  | _ => throw .mismatch

/-- Reads an expression of a kind, given readers for its parts. -/
def readExprForm (d : Draft) (kind : String) : Decoded ExprForm := do
  let one := fun key => field d key parts.expr
  let all := fun key => field d key (items parts.expr)
  let type := fun key => field d key parts.typeRef
  match kind with
  | "Literal" => return .literal (← field d "lit" literal)
  | "Identifier" => return .identifier (← text d "name")
  | "Qualified" => return .qualified (← one "qualifier") (← text d "name")
  | "This" => return .thisRef
  | "Base" => return .baseRef
  | "SetterValue" => return .setterValue
  | "Binary" => return .binary (← field d "op" binaryOp) (← one "left") (← one "right")
  | "Assignment" => return .assignment (← field d "stmt" parts.stmt)
  | "Cast" => return .cast (← one "operand") (← type "target")
  | "Indexer" => return .indexer (← one "object") (← all "operands")
  | "ConstructArray" =>
    return .constructArray (← type "element_type") (← one "size") (← all "initializers")
  | "Construct" => return .construct (← type "constructor") (← all "operands")
  | "ConstructDelegate" =>
    return .constructDelegate (← type "delegate_type") (← one "target") (← text d "method_name")
  | "MethodCall" => return .call (← one "callee") (← all "arguments")
  | "MemberBinding" =>
    return .member (← field? d "target" parts.expr) (← field d "member" memberRef)
  | "TypeExpression" => return .typeExpr (← type "type")
  | "TypeOf" => return .typeOf (← type "type")
  | "AddressOf" => return .addressOf (← one "operand")
  | "Snippet" => return .snippet
  | "Block" => return .block (← field d "block" parts.block)
  | "Local" => return .temporary (Index.ofNat (← field d "id" nat))
  | "Missing" => return .missing
  | _ => throw .mismatch

/-- Reads an expression, given readers for its parts. -/
def readExpr (d : Draft) : Decoded Expr := do
  let form ← parts.readExprForm d (← text d "k")
  let type := staticType form (← field? d "ty" parts.typeRef)
  return { form, type, source := ← field? d "src" source }

/-- Reads a catch clause, given readers for its parts. -/
def readCatcher (d : Draft) : Decoded Catcher := do
  return {
    type := ← field? d "type" parts.typeRef
    name := ← text d "variable"
    block := ← field d "block" parts.block }

/-- Reads a statement of a kind, given readers for its parts. -/
def readStmtForm (d : Draft) (kind : String) : Decoded StmtForm := do
  let one := fun key => field d key parts.expr
  let block := fun key => field d key parts.block
  let all := fun key => field d key (items parts.stmt)
  match kind with
  | "Assignment" => return .assignment (← one "target") (← one "value")
  | "AttachEvent" => return .attachEvent (← one "event") (← one "handler")
  | "RemoveEvent" => return .removeEvent (← one "event") (← one "handler")
  | "If" => return .branch (← one "condition") (← block "then") (← block "else")
  | "Expression" => return .expression (← one "expr")
  | "Goto" => return .goto (← text d "label")
  | "Labeled" => return .labeled (← text d "label") (← field? d "stmt" parts.stmt)
  | "For" =>
    return .loop (← all "init") (← field? d "test" parts.expr) (← all "increment") (← block "body")
  | "Return" => return .ret (← field? d "expr" parts.expr)
  | "Throw" => return .raise (← field? d "expr" parts.expr)
  | "Try" =>
    return .protect (← block "block") (← field d "catchers" (items parts.readCatcher))
      (← field? d "finally" parts.block)
  | "VariableDeclaration" =>
    return .declaration (← text d "name") (← field d "type" parts.typeRef)
      (← field? d "init" parts.expr)
  | "Snippet" => return .snippet
  | "Block" => return .block (← block "block")
  | _ => throw .mismatch

/-- Reads a statement, given readers for its parts. -/
def readStmt (d : Draft) : Decoded Stmt := do
  return { form := ← parts.readStmtForm d (← text d "k"), source := ← field? d "src" source }

/-- Reads a block, given readers for its parts. -/
def readBlock (d : Draft) : Decoded Block := do
  return {
    statements := ← field d "stmts" (items parts.stmt)
    source := ← field? d "src" source }

end Readers

/-- Readers for code that is nested at most so deep. -/
def readers : (depth : Nat) → Readers
  | 0 =>
    { typeRef := fun d => .error (Decode.tooDeep d)
      expr := fun d => .error (Decode.tooDeep d)
      stmt := fun d => .error (Decode.tooDeep d)
      block := fun d => .error (Decode.tooDeep d) }
  | depth + 1 =>
    let parts := readers depth
    { typeRef := parts.readType
      expr := parts.readExpr
      stmt := parts.readStmt
      block := parts.readBlock }

/-- Reads a type. -/
def typeRef : Draft → Decoded TypeRef := (readers Decode.depthLimit).typeRef

/-- Reads an expression. -/
def expr : Draft → Decoded Expr := (readers Decode.depthLimit).expr

/-- Reads a statement. -/
def stmt : Draft → Decoded Stmt := (readers Decode.depthLimit).stmt

/-- Reads a block. -/
def block : Draft → Decoded Block := (readers Decode.depthLimit).block

end MiddleEnd.Exchange.Read
