/-
  Lowering of expressions and statements. A node of unknown shape is reported and becomes nothing;
  where the node around it needs something, a hole takes its place.
-/
import MiddleEnd.Lowering.Basic
import MiddleEnd.Lowering.Name

namespace MiddleEnd.Lowering

open Lower

variable {σ : Type} (host : Host σ)

mutual

/-- Lowers an expression; one of unknown shape is reported and gives nothing. -/
def expr : CodeTree.Expr → Lower σ (Option Expr)
  | ⟨form, source⟩ => exprForm source form

/-- A required part; one that cannot be read leaves a hole. -/
def operand : CodeTree.Expr → Lower σ Expr
  | ⟨form, source⟩ => do return (← exprForm source form).getD .missing

/-- Every position is kept, with holes in place. -/
def operands : List CodeTree.Expr → Lower σ (List Expr)
  | [] => return []
  | e :: es => do
    let e ← operand e
    let es ← operands es
    return e :: es

/-- A name by itself, or behind the object it belongs to. -/
def nameOf (name : String) : Option CodeTree.Expr → Lower σ ExprForm
  | none => return .identifier name
  | some target => do return .qualified (← operand target) name

/-- The size of an array, or the one that its initial values give it. -/
def arraySizeOf (count : Nat) (size : Int32) : Option CodeTree.Expr → Lower σ Expr
  | none => return .literal (.int32 (arraySize count size))
  | some sizeExpr => operand sizeExpr

/-- An expression by its shape; `source` is that of the node. -/
def exprForm (source : Option SourceContext) : CodeTree.ExprForm → Lower σ (Option Expr)
  | .unrecognized kind => do
    unexpected kind source
    return none
  | .argumentRef name => return some { form := .identifier name, source }
  | .arrayCreate type initializers size sizeExpr => do
    let initializers ← operands initializers
    let size ← arraySizeOf initializers.length size sizeExpr
    return some { form := .constructArray (typeRef type) size initializers, source }
  | .arrayIndexer target indices => do
    let object ← operand target
    return some { form := .indexer object (← operands indices), source }
  | .indexer target indices => do
    let object ← operand target
    return some { form := .indexer object (← operands indices), source }
  | .baseRef => return some { form := .baseRef, source }
  | .binary left op right => do
    let left ← operand left
    let right ← operand right
    match binaryOp? op with
    | some op => return some { form := .binary op left right, source }
    | none => return some { form := .assignment { form := .assignment left right, source }, source }
  | .cast type inner => do
    return some { form := .cast (← operand inner) (typeRef type), source }
  | .delegateCreate type target method => do
    return some { form := .constructDelegate (typeRef type) (← operand target) method, source }
  | .delegateInvoke target arguments => do
    let callee := (ExprForm.qualified (← operand target) "Invoke").expr
    return some { form := .call callee (← operands arguments), source }
  | .direction .input inner => expr inner
  | .direction _ inner => do return some { form := .addressOf (← operand inner), source }
  | .eventRef target name => do
    return some { form := .qualified (← operand target) name, source }
  | .fieldRef target name => do return some { form := ← nameOf name target, source }
  | .methodInvoke target method arguments => do
    let callee := (← nameOf method target).expr
    return some { form := .call callee (← operands arguments), source }
  | .methodRef target method => do return some { form := ← nameOf method target, source }
  | .objectCreate type arguments => do
    return some { form := .construct (typeRef type) (← operands arguments), source }
  | .primitive value => return some { Expr.literal (literal value) with source }
  | .propertyRef target name => do
    return some { form := .qualified (← operand target) name, source }
  | .setterValue => return some { form := .setterValue, source }
  | .snippet value => do
    let document ← snippetDocument host none value
    return some { form := .snippet, source := some (.whole document) }
  | .thisRef => return some { form := .thisRef, source }
  | .typeOf type => return some { form := .typeOf (typeRef type), source }
  | .typeRef type => return some { form := .typeExpr (typeRef type), source }
  | .variableRef name => return some { form := .identifier name, source }

end

/-- An optional part; one that cannot be read leaves it empty. -/
def exprOption : Option CodeTree.Expr → Lower σ (Option Expr)
  | none => return none
  | some e => expr host e

mutual

/-- Lowers a statement; one of unknown shape is reported and gives nothing. -/
def stmt : CodeTree.Stmt → Lower σ (Option Stmt)
  | ⟨form, source⟩ => stmtForm source form

/-- What cannot be read drops out. -/
def stmts : List CodeTree.Stmt → Lower σ (List Stmt)
  | [] => return []
  | s :: ss => do
    let s ← stmt s
    let ss ← stmts ss
    return s.toList ++ ss

/-- Lowers a statement, if there is one. -/
def stmtOption : Option CodeTree.Stmt → Lower σ (Option Stmt)
  | none => return none
  | some s => stmt s

/-- Lowers catch clauses. -/
def catchers : List CodeTree.CatchClause → Lower σ (List Catcher)
  | [] => return []
  | ⟨localName, exceptionType, statements⟩ :: cs => do
    let statements ← stmts statements
    let cs ← catchers cs
    return { type := exceptionType.map typeRef, name := localName, block := { statements } } :: cs

/-- A statement by its shape; comments become nothing. -/
def stmtForm (source : Option SourceContext) : CodeTree.StmtForm → Lower σ (Option Stmt)
  | .unrecognized kind => do
    unexpected kind source
    return none
  | .comment _ => return none
  | .assign left right => do
    let target ← operand host left
    let value ← operand host right
    return some { form := .assignment target value, source }
  | .attachEvent event listener => do
    let event ← operand host event
    return some { form := .attachEvent event (← operand host listener), source }
  | .removeEvent event listener => do
    let event ← operand host event
    return some { form := .removeEvent event (← operand host listener), source }
  | .condition condition whenTrue whenFalse => do
    let condition ← operand host condition
    let whenTrue ← stmts whenTrue
    let whenFalse ← stmts whenFalse
    return some {
      form := .branch condition { statements := whenTrue } { statements := whenFalse }, source }
  | .expression expression => do
    match ← expr host expression with
    | some e => return some { form := .expression e, source }
    | none => return none
  | .goto label => return some { form := .goto label, source }
  | .iteration init test increment body => do
    let init ← stmtOption init
    let test ← exprOption host test
    let increment ← stmtOption increment
    let statements ← stmts body
    return some { form := .loop init.toList test increment.toList { statements }, source }
  | .labeled label statement => do
    return some { form := .labeled label (← stmtOption statement), source }
  | .methodReturn value => do return some { form := .ret (← exprOption host value), source }
  | .snippet value pragma => do
    let document ← snippetDocument host pragma value
    return some { form := .snippet, source := some (.whole document) }
  | .throwException value => do return some { form := .raise (← exprOption host value), source }
  | .tryCatchFinally body catches last => do
    let statements ← stmts body
    let catches ← catchers catches
    let lastStatements ← stmts last
    let last := if last.isEmpty then none else some { statements := lastStatements }
    return some { form := .protect { statements } catches last, source }
  | .variableDeclaration name type init => do
    return some { form := .declaration name (typeRef type) (← exprOption host init), source }

end

/-- The statements of a method as a block. -/
def block (statements : List CodeTree.Stmt) : Lower σ Block := do
  return { statements := ← stmts host statements }

end MiddleEnd.Lowering
