/-
  The exchange form of code: a JSON value for every expression, statement, block and type, with
  static types and sources left out where there are none. Wide numbers and floating-point numbers
  are texts.
-/
import MiddleEnd.Code.Text
import MiddleEnd.Json.Value

namespace MiddleEnd.Exchange

/-- Writes an id of a type. -/
def typeIdJson (t : TypeId) : Json := .string t.text

/-- Writes a reference to a member. -/
def refJson (m : MemberRef) : Json := .string m.text

/-- The name, first line and text of the document, then the region. -/
def sourceJson (s : SourceContext) : Json :=
  .array [.option .string s.document.name, .ofNat s.document.startLine.toNat,
    .string s.document.text, .ofNat s.offset.toNat, .ofNat s.length.toNat]

/-- The field of a source that is there. -/
def sourceField : Option SourceContext → List (String × Json)
  | some s => [("src", sourceJson s)]
  | none => []

/-- A list with a tag in front. -/
def tagged (tag : String) (items : List Json) : Json := .array (.string tag :: items)

/-- Writes a literal. -/
def literalJson : Literal → Json
  | .null => tagged "Null" []
  | .dbNull => tagged "DbNull" []
  | .boolean v => tagged "Boolean" [.bool v]
  | .char v => tagged "Char" [.string (String.ofList [v])]
  | .int8 v => tagged "Int8" [.ofInt v.toInt]
  | .uint8 v => tagged "UInt8" [.ofNat v.toNat]
  | .int16 v => tagged "Int16" [.ofInt v.toInt]
  | .uint16 v => tagged "UInt16" [.ofNat v.toNat]
  | .int32 v => tagged "Int32" [.ofInt v.toInt]
  | .uint32 v => tagged "UInt32" [.ofNat v.toNat]
  | .int64 v => tagged "Int64" [.string (toString v.toInt)]
  | .uint64 v => tagged "UInt64" [.string (toString v.toNat)]
  | .dateTime v => tagged "DateTime" [.string (toString v.toInt)]
  | .single v => tagged "Single" [.string (FloatLayout.literal.text v)]
  | .double v => tagged "Double" [.string (FloatLayout.literal.text v)]
  | .decimal v => tagged "Decimal" [.string (toString v.mantissa.toInt), .ofNat v.scale.toNat]
  | .string v => tagged "String" [.string v]

/-- The name of a kind of expression. -/
def exprKind : ExprForm → String
  | .literal _ => "Literal"
  | .identifier _ => "Identifier"
  | .qualified .. => "Qualified"
  | .thisRef => "This"
  | .baseRef => "Base"
  | .setterValue => "SetterValue"
  | .binary .. => "Binary"
  | .assignment _ => "Assignment"
  | .cast .. => "Cast"
  | .indexer .. => "Indexer"
  | .constructArray .. => "ConstructArray"
  | .construct .. => "Construct"
  | .constructDelegate .. => "ConstructDelegate"
  | .call .. => "MethodCall"
  | .member .. => "MemberBinding"
  | .typeExpr _ => "TypeExpression"
  | .typeOf _ => "TypeOf"
  | .addressOf _ => "AddressOf"
  | .snippet => "Snippet"
  | .block _ => "Block"
  | .temporary _ => "Local"
  | .missing => "Missing"

/-- The name of a kind of statement. -/
def stmtKind : StmtForm → String
  | .assignment .. => "Assignment"
  | .attachEvent .. => "AttachEvent"
  | .removeEvent .. => "RemoveEvent"
  | .branch .. => "If"
  | .expression _ => "Expression"
  | .goto _ => "Goto"
  | .labeled .. => "Labeled"
  | .loop .. => "For"
  | .ret _ => "Return"
  | .raise _ => "Throw"
  | .protect .. => "Try"
  | .declaration .. => "VariableDeclaration"
  | .snippet => "Snippet"
  | .block _ => "Block"

mutual

/-- Writes a type. -/
def typeJson : TypeRef → Json
  | .primitive p => tagged "prim" [.string p.text]
  | .named e => tagged "named" [exprJson e]
  | .array t rank => tagged "array" [typeJson t, .ofNat rank.toNat]
  | .reference t => tagged "ref" [typeJson t]
  | .bound id => tagged "bound" [typeIdJson id]

/-- Writes a type, if there is one. -/
def typeOption : Option TypeRef → Json
  | some t => typeJson t
  | none => .null

/-- The field of a static type that is known. -/
def typeField : Option TypeRef → List (String × Json)
  | some t => [("ty", typeJson t)]
  | none => []

/-- Writes an expression. -/
def exprJson : Expr → Json
  | ⟨form, type, source⟩ =>
    .object (("k", .string (exprKind form)) ::
      (exprFields form ++ typeField type ++ sourceField source))

/-- Writes expressions. -/
def exprsJson : List Expr → List Json
  | [] => []
  | e :: es => exprJson e :: exprsJson es

/-- Writes an expression, if there is one. -/
def exprOption : Option Expr → Json
  | some e => exprJson e
  | none => .null

/-- The fields of an expression. -/
def exprFields : ExprForm → List (String × Json)
  | .literal l => [("lit", literalJson l)]
  | .identifier name => [("name", .string name)]
  | .qualified q name => [("qualifier", exprJson q), ("name", .string name)]
  | .binary op l r => [("op", .string op.text), ("left", exprJson l), ("right", exprJson r)]
  | .assignment s => [("stmt", stmtJson s)]
  | .cast e t => [("operand", exprJson e), ("target", typeJson t)]
  | .indexer o es => [("object", exprJson o), ("operands", .array (exprsJson es))]
  | .constructArray t size es =>
    [("element_type", typeJson t), ("size", exprJson size), ("initializers", .array (exprsJson es))]
  | .construct t es => [("constructor", typeJson t), ("operands", .array (exprsJson es))]
  | .constructDelegate t e name =>
    [("delegate_type", typeJson t), ("target", exprJson e), ("method_name", .string name)]
  | .call callee es => [("callee", exprJson callee), ("arguments", .array (exprsJson es))]
  | .member receiver m => [("target", exprOption receiver), ("member", refJson m)]
  | .typeExpr t => [("type", typeJson t)]
  | .typeOf t => [("type", typeJson t)]
  | .addressOf e => [("operand", exprJson e)]
  | .block b => [("block", blockJson b)]
  | .temporary id => [("id", .ofNat id.index)]
  | .thisRef => []
  | .baseRef => []
  | .setterValue => []
  | .snippet => []
  | .missing => []

/-- Writes a statement. -/
def stmtJson : Stmt → Json
  | ⟨form, source⟩ =>
    .object (("k", .string (stmtKind form)) :: (stmtFields form ++ sourceField source))

/-- Writes statements. -/
def stmtsJson : List Stmt → List Json
  | [] => []
  | s :: ss => stmtJson s :: stmtsJson ss

/-- Writes a statement, if there is one. -/
def stmtOption : Option Stmt → Json
  | some s => stmtJson s
  | none => .null

/-- The fields of a statement. -/
def stmtFields : StmtForm → List (String × Json)
  | .assignment t v => [("target", exprJson t), ("value", exprJson v)]
  | .attachEvent e h => [("event", exprJson e), ("handler", exprJson h)]
  | .removeEvent e h => [("event", exprJson e), ("handler", exprJson h)]
  | .branch c t f => [("condition", exprJson c), ("then", blockJson t), ("else", blockJson f)]
  | .expression e => [("expr", exprJson e)]
  | .goto label => [("label", .string label)]
  | .labeled label s => [("label", .string label), ("stmt", stmtOption s)]
  | .loop init test increment body =>
    [("init", .array (stmtsJson init)), ("test", exprOption test),
     ("increment", .array (stmtsJson increment)), ("body", blockJson body)]
  | .ret e => [("expr", exprOption e)]
  | .raise e => [("expr", exprOption e)]
  | .protect b cs last =>
    [("block", blockJson b), ("catchers", .array (catchersJson cs)), ("finally", blockOption last)]
  | .declaration name t init =>
    [("name", .string name), ("type", typeJson t), ("init", exprOption init)]
  | .snippet => []
  | .block b => [("block", blockJson b)]

/-- Writes catch clauses. -/
def catchersJson : List Catcher → List Json
  | [] => []
  | ⟨type, name, block⟩ :: cs =>
    .object [("type", typeOption type), ("variable", .string name), ("block", blockJson block)] ::
      catchersJson cs

/-- Writes a block. -/
def blockJson : Block → Json
  | ⟨statements, source⟩ =>
    .object (("stmts", .array (stmtsJson statements)) :: sourceField source)

/-- Writes a block, if there is one. -/
def blockOption : Option Block → Json
  | some b => blockJson b
  | none => .null

end

end MiddleEnd.Exchange
