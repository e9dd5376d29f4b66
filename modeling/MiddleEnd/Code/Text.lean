/-
  Code as text. The text of a node does not show its static type or, snippets apart, its source.
-/
import MiddleEnd.Code.Basic

namespace MiddleEnd

/-- The sign of an operator. -/
def BinaryOp.text : BinaryOp → String
  | .add => "+"
  | .sub => "-"
  | .mul => "*"
  | .div => "/"
  | .rem => "%"
  | .and => "&"
  | .or => "|"
  | .logicalAnd => "&&"
  | .logicalOr => "||"
  | .eq => "=="
  | .ne => "!="
  | .lt => "<"
  | .le => "<="
  | .gt => ">"
  | .ge => ">="

/-- All binary operators. -/
def BinaryOp.all : List BinaryOp :=
  [.add, .sub, .mul, .div, .rem, .and, .or, .logicalAnd, .logicalOr, .eq, .ne, .lt, .le, .gt, .ge]

/-- The operator of a sign. -/
def BinaryOp.ofText? (s : String) : Option BinaryOp := all.find? fun op => op.text == s

/-- A snippet shows the text it covers. -/
def snippetText : Option SourceContext → String
  | some source => "snippet(" ++ Text.quoted source.text ++ ")"
  | none => "snippet"

/-- The commas between the dimensions of an array. -/
def rankText (rank : UInt32) : String := String.ofList (List.replicate (rank.toNat - 1) ',')

mutual

/-- A type as it is shown. -/
def TypeRef.text : TypeRef → String
  | .primitive p => p.text
  | .named name => name.text
  | .array element rank => element.text ++ "[" ++ rankText rank ++ "]"
  | .reference target => target.text ++ "&"
  | .bound id => "type#" ++ id.text

/-- An expression as it is shown. -/
def Expr.text : Expr → String
  | ⟨form, _, source⟩ => form.text source

/-- The text of an expression; a snippet is shown by what it covers of its source. -/
def ExprForm.text (source : Option SourceContext) : ExprForm → String
  | .literal l => l.text
  | .identifier name => name
  | .qualified qualifier name => "(" ++ qualifier.text ++ ")." ++ name
  | .thisRef => "this"
  | .baseRef => "base"
  | .setterValue => "value"
  | .binary op left right => "(" ++ left.text ++ " " ++ op.text ++ " " ++ right.text ++ ")"
  | .assignment statement => "(" ++ statement.text ++ ")"
  | .cast operand target => "((" ++ target.text ++ ") " ++ operand.text ++ ")"
  | .indexer object operands => object.text ++ "[" ++ exprsText operands ++ "]"
  | .constructArray element size initializers =>
    "new " ++ element.text ++ "[" ++ size.text ++ "] \x7b" ++ exprsText initializers ++ "\x7d"
  | .construct type operands => "new " ++ type.text ++ "(" ++ exprsText operands ++ ")"
  | .constructDelegate type target method =>
    "new " ++ type.text ++ "(" ++ target.text ++ "." ++ method ++ ")"
  | .call callee arguments => callee.text ++ "(" ++ exprsText arguments ++ ")"
  | .member receiver member => receiverText receiver ++ "<" ++ member.text ++ ">"
  | .typeExpr type => type.text
  | .typeOf type => "typeof(" ++ type.text ++ ")"
  | .addressOf operand => "&" ++ operand.text
  | .snippet => snippetText source
  | .block block => block.text
  | .temporary id => "$t" ++ id.text
  | .missing => "<missing>"

/-- What stands in front of a member: its receiver and a dot, or nothing. -/
def receiverText : Option Expr → String
  | none => ""
  | some receiver => receiver.text ++ "."

/-- Expressions with commas between them. -/
def exprsText : List Expr → String
  | [] => ""
  | [e] => e.text
  | e :: es => e.text ++ ", " ++ exprsText es

/-- A statement as it is shown. -/
def Stmt.text : Stmt → String
  | ⟨form, source⟩ => form.text source

/-- The text of a statement; a snippet is shown by what it covers of its source. -/
def StmtForm.text (source : Option SourceContext) : StmtForm → String
  | .assignment target value => target.text ++ " = " ++ value.text
  | .attachEvent event handler => event.text ++ " += " ++ handler.text
  | .removeEvent event handler => event.text ++ " -= " ++ handler.text
  | .branch condition whenTrue whenFalse =>
    "if " ++ condition.text ++ " " ++ whenTrue.text ++ " else " ++ whenFalse.text
  | .expression expression => expression.text
  | .goto label => "goto " ++ label
  | .labeled label statement => label ++ ":" ++ labeledText statement
  | .loop init test increment body =>
    "for (" ++ stmtsText init ++ "; " ++ testText test ++ "; " ++ stmtsText increment ++ ") "
      ++ body.text
  | .ret value => "return" ++ valueText value
  | .raise value => "throw" ++ valueText value
  | .protect body catchers last => "try " ++ body.text ++ catchersText catchers ++ lastText last
  | .declaration name type init => "local " ++ type.text ++ " " ++ name ++ initText init
  | .snippet => snippetText source
  | .block block => block.text

/-- The statement behind a label, if there is one. -/
def labeledText : Option Stmt → String
  | none => ""
  | some statement => " " ++ statement.text

/-- The test of a loop, if there is one. -/
def testText : Option Expr → String
  | none => ""
  | some test => test.text

/-- The value behind a keyword, if there is one. -/
def valueText : Option Expr → String
  | none => ""
  | some value => " " ++ value.text

/-- The initial value of a local, if there is one. -/
def initText : Option Expr → String
  | none => ""
  | some init => " = " ++ init.text

/-- Statements with commas between them. -/
def stmtsText : List Stmt → String
  | [] => ""
  | [s] => s.text
  | s :: ss => s.text ++ ", " ++ stmtsText ss

/-- Catch clauses one after the other. -/
def catchersText : List Catcher → String
  | [] => ""
  | ⟨type, name, block⟩ :: cs =>
    " catch" ++ caughtText name type ++ " " ++ block.text ++ catchersText cs

/-- What a catch clause catches, if it says so. -/
def caughtText (name : String) : Option TypeRef → String
  | none => ""
  | some type => " (" ++ type.text ++ " " ++ name ++ ")"

/-- The last block of a `try`, if there is one. -/
def lastText : Option Block → String
  | none => ""
  | some block => " finally " ++ block.text

/-- A block as it is shown. -/
def Block.text : Block → String
  | ⟨statements, _⟩ => "\x7b " ++ bodyText statements ++ "\x7d"

/-- Statements each with a semicolon behind it. -/
def bodyText : List Stmt → String
  | [] => ""
  | s :: ss => s.text ++ "; " ++ bodyText ss

end

end MiddleEnd
