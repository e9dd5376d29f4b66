/-
  Every access to a member of an object, with the place where it stands. An access that makes up a
  whole statement, or that such a statement assigns to, is told apart from one inside a larger
  expression, and a statement of a block knows the statements before and behind it. Nothing is left
  out: the accesses are the members with receivers among all expressions (`Block.accesses_targets`).
-/
import MiddleEnd.Proofs.Code.Occurrence

namespace MiddleEnd

/-- Where a statement stands. -/
inductive Context where
  /-- In no block: in the head of a loop, behind a label, or as an expression. -/
  | alone
  | within (before behind : List Stmt)

/-- Where an access stands. -/
inductive Site where
  | inner
  /-- It is all of an expression statement. -/
  | whole (context : Context)
  /-- It is assigned a value. -/
  | assigned (context : Context) (value : Expr)

structure Access where
  site : Site
  receiver : Expr
  ref : MemberRef

mutual

def Expr.accesses (site : Site) : Expr → List Access
  | ⟨form, _, _⟩ => form.accesses site

def ExprForm.accesses (site : Site) : ExprForm → List Access
  | .literal _ => []
  | .identifier _ => []
  | .qualified qualifier _ => qualifier.accesses .inner
  | .thisRef => []
  | .baseRef => []
  | .setterValue => []
  | .binary _ left right => left.accesses .inner ++ right.accesses .inner
  | .assignment statement => statement.accesses .alone
  | .cast operand _ => operand.accesses .inner
  | .indexer object operands => object.accesses .inner ++ exprsAccesses operands
  | .constructArray _ size initializers => size.accesses .inner ++ exprsAccesses initializers
  | .construct _ operands => exprsAccesses operands
  | .constructDelegate _ target _ => target.accesses .inner
  | .call callee arguments => callee.accesses .inner ++ exprsAccesses arguments
  | .member none _ => []
  | .member (some receiver) ref => ⟨site, receiver, ref⟩ :: receiver.accesses .inner
  | .typeExpr _ => []
  | .typeOf _ => []
  | .addressOf operand => operand.accesses .inner
  | .snippet => []
  | .block block => block.accesses
  | .temporary _ => []
  | .missing => []

def optionAccesses : Option Expr → List Access
  | none => []
  | some e => e.accesses .inner

def exprsAccesses : List Expr → List Access
  | [] => []
  | e :: es => e.accesses .inner ++ exprsAccesses es

def Stmt.accesses (context : Context) : Stmt → List Access
  | ⟨form, _⟩ => form.accesses context

def StmtForm.accesses (context : Context) : StmtForm → List Access
  | .assignment target value =>
    target.accesses (.assigned context value) ++ value.accesses .inner
  | .attachEvent event handler => event.accesses .inner ++ handler.accesses .inner
  | .removeEvent event handler => event.accesses .inner ++ handler.accesses .inner
  | .branch condition whenTrue whenFalse =>
    condition.accesses .inner ++ whenTrue.accesses ++ whenFalse.accesses
  | .expression expression => expression.accesses (.whole context)
  | .goto _ => []
  | .labeled _ statement => labeledAccesses statement
  | .loop init test increment body =>
    looseAccesses init ++ optionAccesses test ++ looseAccesses increment ++ body.accesses
  | .ret value => optionAccesses value
  | .raise value => optionAccesses value
  | .protect body catchers last =>
    body.accesses ++ catchersAccesses catchers ++ lastAccesses last
  | .declaration _ _ init => optionAccesses init
  | .snippet => []
  | .block block => block.accesses

def labeledAccesses : Option Stmt → List Access
  | none => []
  | some statement => statement.accesses .alone

/-- The statements of the head of a loop. -/
def looseAccesses : List Stmt → List Access
  | [] => []
  | s :: ss => s.accesses .alone ++ looseAccesses ss

/-- The statements of a block, behind those in `before`. -/
def stmtsAccesses (before : List Stmt) : List Stmt → List Access
  | [] => []
  | s :: ss => s.accesses (.within before ss) ++ stmtsAccesses (before ++ [s]) ss

def catchersAccesses : List Catcher → List Access
  | [] => []
  | ⟨_, _, block⟩ :: cs => block.accesses ++ catchersAccesses cs

def lastAccesses : Option Block → List Access
  | none => []
  | some block => block.accesses

def Block.accesses : Block → List Access
  | ⟨statements, _⟩ => stmtsAccesses [] statements

end

attribute [simp] Expr.accesses ExprForm.accesses optionAccesses exprsAccesses Stmt.accesses
  StmtForm.accesses labeledAccesses looseAccesses stmtsAccesses catchersAccesses lastAccesses
  Block.accesses

/-! ## Nothing is left out -/

/-- The object and the member that an expression accesses. -/
def Expr.accessed? (e : Expr) : Option (Expr × MemberRef) :=
  match e.form with
  | .member (some receiver) ref => some (receiver, ref)
  | _ => none

def Access.target (a : Access) : Expr × MemberRef := (a.receiver, a.ref)

mutual

theorem Expr.accesses_targets (site : Site) : (e : Expr) →
    (e.accesses site).map Access.target = (e.exprs false).filterMap Expr.accessed?
  | ⟨form, type, source⟩ => by
    rw [Expr.accesses, Expr.exprs, typeExprs_false, List.append_nil]
    exact ExprForm.accesses_targets site type source form

theorem ExprForm.accesses_targets (site : Site) (type : Option TypeRef)
    (source : Option SourceContext) : (form : ExprForm) →
    (form.accesses site).map Access.target =
      (⟨form, type, source⟩ :: form.exprs false).filterMap Expr.accessed?
  | .literal _ | .identifier _ | .thisRef | .baseRef | .setterValue | .typeExpr _ | .typeOf _
  | .snippet | .temporary _ | .missing | .member none _ => by simp [Expr.accessed?]
  | .qualified qualifier _ => by
    simp [List.filterMap_cons, Expr.accessed?, qualifier.accesses_targets]
  | .binary _ left right => by
    simp [List.filterMap_cons, Expr.accessed?, left.accesses_targets, right.accesses_targets]
  | .assignment statement => by
    simp [List.filterMap_cons, Expr.accessed?, statement.accesses_targets]
  | .cast operand _ => by
    simp [List.filterMap_cons, Expr.accessed?, operand.accesses_targets]
  | .indexer object operands => by
    simp [List.filterMap_cons, Expr.accessed?, object.accesses_targets,
      exprsAccesses_targets operands]
  | .constructArray _ size initializers => by
    simp [List.filterMap_cons, Expr.accessed?, size.accesses_targets,
      exprsAccesses_targets initializers]
  | .construct _ operands => by
    simp [List.filterMap_cons, Expr.accessed?, exprsAccesses_targets operands]
  | .constructDelegate _ target _ => by
    simp [List.filterMap_cons, Expr.accessed?, target.accesses_targets]
  | .call callee arguments => by
    simp [List.filterMap_cons, Expr.accessed?, callee.accesses_targets,
      exprsAccesses_targets arguments]
  | .member (some receiver) ref => by
    simp [Expr.accessed?, Access.target, receiver.accesses_targets]
  | .addressOf operand => by
    simp [List.filterMap_cons, Expr.accessed?, operand.accesses_targets]
  | .block block => by simp [List.filterMap_cons, Expr.accessed?, block.accesses_targets]

theorem optionAccesses_targets : (e : Option Expr) →
    (optionAccesses e).map Access.target = (optionExprs false e).filterMap Expr.accessed?
  | none => rfl
  | some e => by rw [optionAccesses, optionExprs, e.accesses_targets]

theorem exprsAccesses_targets : (es : List Expr) →
    (exprsAccesses es).map Access.target = (exprsExprs false es).filterMap Expr.accessed?
  | [] => rfl
  | e :: es => by
    rw [exprsAccesses, exprsExprs, List.map_append, List.filterMap_append, e.accesses_targets,
      exprsAccesses_targets es]

theorem Stmt.accesses_targets (context : Context) : (s : Stmt) →
    (s.accesses context).map Access.target = (s.exprs false).filterMap Expr.accessed?
  | ⟨form, _⟩ => by rw [Stmt.accesses, Stmt.exprs, form.accesses_targets]

theorem StmtForm.accesses_targets (context : Context) : (form : StmtForm) →
    (form.accesses context).map Access.target = (form.exprs false).filterMap Expr.accessed?
  | .assignment target value => by simp [target.accesses_targets, value.accesses_targets]
  | .attachEvent event handler => by simp [event.accesses_targets, handler.accesses_targets]
  | .removeEvent event handler => by simp [event.accesses_targets, handler.accesses_targets]
  | .branch condition whenTrue whenFalse => by
    simp [condition.accesses_targets, whenTrue.accesses_targets, whenFalse.accesses_targets]
  | .expression expression => by simp [expression.accesses_targets]
  | .goto _ | .snippet => rfl
  | .labeled _ statement => by simp [labeledAccesses_targets statement]
  | .loop init test increment body => by
    simp [looseAccesses_targets init, optionAccesses_targets test,
      looseAccesses_targets increment, body.accesses_targets]
  | .ret value => by simp [optionAccesses_targets value]
  | .raise value => by simp [optionAccesses_targets value]
  | .protect body catchers last => by
    simp [body.accesses_targets, catchersAccesses_targets catchers, lastAccesses_targets last]
  | .declaration _ _ init => by simp [optionAccesses_targets init]
  | .block block => by simp [block.accesses_targets]

theorem labeledAccesses_targets : (s : Option Stmt) →
    (labeledAccesses s).map Access.target = (labeledExprs false s).filterMap Expr.accessed?
  | none => rfl
  | some s => by rw [labeledAccesses, labeledExprs, s.accesses_targets]

theorem looseAccesses_targets : (ss : List Stmt) →
    (looseAccesses ss).map Access.target = (stmtsExprs false ss).filterMap Expr.accessed?
  | [] => rfl
  | s :: ss => by
    rw [looseAccesses, stmtsExprs, List.map_append, List.filterMap_append, s.accesses_targets,
      looseAccesses_targets ss]

theorem stmtsAccesses_targets (before : List Stmt) : (ss : List Stmt) →
    (stmtsAccesses before ss).map Access.target = (stmtsExprs false ss).filterMap Expr.accessed?
  | [] => rfl
  | s :: ss => by
    rw [stmtsAccesses, stmtsExprs, List.map_append, List.filterMap_append, s.accesses_targets,
      stmtsAccesses_targets (before ++ [s]) ss]

theorem catchersAccesses_targets : (cs : List Catcher) →
    (catchersAccesses cs).map Access.target = (catchersExprs false cs).filterMap Expr.accessed?
  | [] => rfl
  | ⟨type, _, block⟩ :: cs => by
    rw [catchersAccesses, catchersExprs, typeExprs_false, List.nil_append, List.map_append,
      List.filterMap_append, block.accesses_targets, catchersAccesses_targets cs]

theorem lastAccesses_targets : (b : Option Block) →
    (lastAccesses b).map Access.target = (lastExprs false b).filterMap Expr.accessed?
  | none => rfl
  | some b => by rw [lastAccesses, lastExprs, b.accesses_targets]

/-- The accesses of a block are the members with receivers among its expressions outside types. -/
theorem Block.accesses_targets : (b : Block) →
    b.accesses.map Access.target = (b.exprs false).filterMap Expr.accessed?
  | ⟨statements, _⟩ => by rw [Block.accesses, Block.exprs, stmtsAccesses_targets [] statements]

end

end MiddleEnd
