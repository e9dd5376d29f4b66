/-
  Where lowering leaves holes. A required part that cannot be read becomes a hole, and nothing else
  does; an optional part that cannot be read is left empty, and the statement around it stays. So
  there are as many holes as required parts that cannot be read, statements are kept or dropped by
  what they are and not by what is in them, and code that is lowered without a report has no holes
  (`stmts_holes`).
-/
import MiddleEnd.Proofs.CodeTree.Required
import MiddleEnd.Proofs.Lowering.Accounting
import MiddleEnd.Proofs.Lowering.Nesting

namespace MiddleEnd

/-! ## Holes -/

def Expr.isMissing (e : Expr) : Bool :=
  match e.form with
  | .missing => true
  | _ => false

/-- How many of the expressions are holes. -/
def holes (es : List Expr) : Nat := es.countP Expr.isMissing

@[simp]
theorem holes_nil : holes [] = 0 := rfl

@[simp]
theorem holes_append (first rest : List Expr) : holes (first ++ rest) = holes first + holes rest :=
  List.countP_append

@[simp]
theorem holes_cons (e : Expr) (es : List Expr) :
    holes (e :: es) = (if e.isMissing then 1 else 0) + holes es := by
  rw [holes, List.countP_cons, Nat.add_comm]
  rfl

/-! ## Kept statements -/

inductive StmtKind where
  | assignment
  | attachEvent
  | removeEvent
  | branch
  | expression
  | goto
  | labeled
  | loop
  | ret
  | raise
  | protect
  | declaration
  | snippet
  | block
  deriving DecidableEq, Repr

/-- A statement without its expressions: its kind, which of its optional parts are there, and the
    statements in each of its blocks. Statements around a loop and behind a label are blocks of at
    most one statement. -/
inductive Kept where
  | mk (kind : StmtKind) (filled : List Bool) (blocks : List (List Kept))

mutual

def Stmt.kept : Stmt → Kept
  | ⟨form, _⟩ => form.kept

def StmtForm.kept : StmtForm → Kept
  | .assignment _ _ => ⟨.assignment, [], []⟩
  | .attachEvent _ _ => ⟨.attachEvent, [], []⟩
  | .removeEvent _ _ => ⟨.removeEvent, [], []⟩
  | .branch _ whenTrue whenFalse => ⟨.branch, [], [whenTrue.kept, whenFalse.kept]⟩
  | .expression _ => ⟨.expression, [], []⟩
  | .goto _ => ⟨.goto, [], []⟩
  | .labeled _ statement => ⟨.labeled, [], [labeledKept statement]⟩
  | .loop init test increment body =>
    ⟨.loop, [test.isSome], [stmtsKept init, stmtsKept increment, body.kept]⟩
  | .ret value => ⟨.ret, [value.isSome], []⟩
  | .raise value => ⟨.raise, [value.isSome], []⟩
  | .protect body catchers last =>
    ⟨.protect, [last.isSome], body.kept :: lastKept last :: catchersKept catchers⟩
  | .declaration _ _ init => ⟨.declaration, [init.isSome], []⟩
  | .snippet => ⟨.snippet, [], []⟩
  | .block block => ⟨.block, [], [block.kept]⟩

def labeledKept : Option Stmt → List Kept
  | none => []
  | some s => [s.kept]

def stmtsKept : List Stmt → List Kept
  | [] => []
  | s :: ss => s.kept :: stmtsKept ss

def catchersKept : List Catcher → List (List Kept)
  | [] => []
  | ⟨_, _, block⟩ :: cs => block.kept :: catchersKept cs

def lastKept : Option Block → List Kept
  | none => []
  | some block => block.kept

def Block.kept : Block → List Kept
  | ⟨statements, _⟩ => stmtsKept statements

end

theorem stmtsKept_append (first rest : List Stmt) :
    stmtsKept (first ++ rest) = stmtsKept first ++ stmtsKept rest := by
  induction first with
  | nil => rfl
  | cons s first ih => rw [List.cons_append, stmtsKept, stmtsKept, ih, List.cons_append]

/-- A list that holds at most one statement. -/
theorem stmtsKept_toList (s : Option Stmt) : stmtsKept s.toList = labeledKept s := by
  cases s with
  | none => rw [Option.toList_none, stmtsKept, labeledKept]
  | some s => rw [Option.toList_some, stmtsKept, stmtsKept, labeledKept]

theorem stmtsExprs_append (types : Bool) (first rest : List Stmt) :
    stmtsExprs types (first ++ rest) = stmtsExprs types first ++ stmtsExprs types rest := by
  induction first with
  | nil => rfl
  | cons s first ih => rw [List.cons_append, stmtsExprs, stmtsExprs, ih, List.append_assoc]

theorem stmtsExprs_toList (types : Bool) (s : Option Stmt) :
    stmtsExprs types s.toList = labeledExprs types s := by
  cases s with
  | none => rfl
  | some s => exact List.append_nil _

namespace CodeTree

/-- An optional part is there if it can be read. -/
def filled : Option Expr → Bool
  | none => false
  | some e => !e.unreadable

mutual

/-- What a statement becomes, if it is not dropped. Comments and statements of unknown shape are,
    and so is an expression that cannot be read. -/
def Stmt.kept : Stmt → List Kept
  | ⟨form, _⟩ => form.kept

def StmtForm.kept : StmtForm → List Kept
  | .unrecognized _ => []
  | .comment _ => []
  | .expression expression => if expression.unreadable then [] else [⟨.expression, [], []⟩]
  | .assign _ _ => [⟨.assignment, [], []⟩]
  | .attachEvent _ _ => [⟨.attachEvent, [], []⟩]
  | .removeEvent _ _ => [⟨.removeEvent, [], []⟩]
  | .condition _ whenTrue whenFalse =>
    [⟨.branch, [], [stmtsKept whenTrue, stmtsKept whenFalse]⟩]
  | .goto _ => [⟨.goto, [], []⟩]
  | .iteration init test increment body =>
    [⟨.loop, [filled test], [optionKept init, optionKept increment, stmtsKept body]⟩]
  | .labeled _ statement => [⟨.labeled, [], [optionKept statement]⟩]
  | .methodReturn value => [⟨.ret, [filled value], []⟩]
  | .snippet _ _ => [⟨.snippet, [], []⟩]
  | .throwException value => [⟨.raise, [filled value], []⟩]
  | .tryCatchFinally body catches last =>
    [⟨.protect, [!last.isEmpty], stmtsKept body :: stmtsKept last :: catchesKept catches⟩]
  | .variableDeclaration _ _ init => [⟨.declaration, [filled init], []⟩]

def optionKept : Option Stmt → List Kept
  | none => []
  | some s => s.kept

def stmtsKept : List Stmt → List Kept
  | [] => []
  | s :: ss => s.kept ++ stmtsKept ss

def catchesKept : List CatchClause → List (List Kept)
  | [] => []
  | ⟨_, _, statements⟩ :: cs => stmtsKept statements :: catchesKept cs

end

end CodeTree

namespace Lowering

open CodeTree (unreadableIn filled)
open Lower

/-! ## Types -/

theorem holes_qualifyFrom (pieces : List (List Char)) {head : Expr}
    (h : holes (head.exprs true) = 0) : holes ((qualifyFrom head pieces).exprs true) = 0 := by
  induction pieces generalizing head with
  | nil => exact h
  | cons piece pieces ih =>
      refine ih ?_
      simp [ExprForm.expr, Expr.isMissing, h]

theorem holes_qualify (dotted : String) : holes ((qualify dotted).exprs true) = 0 := by
  have identifier (name : String) : holes ((Expr.identifier name).exprs true) = 0 := by
    simp [Expr.identifier, ExprForm.expr, Expr.isMissing]
  unfold qualify
  split
  · exact holes_qualifyFrom _ (identifier _)
  · exact holes_qualifyFrom _ (identifier _)
  · exact identifier _

mutual

@[simp]
theorem holes_typeRef : (type : CodeTree.TypeReference) → holes ((typeRef type).exprs true) = 0
  | ⟨baseType, element, rank⟩ => by
      rw [typeRef]
      exact holes_elementRef baseType rank element

theorem holes_elementRef (baseType : String) (rank : UInt32) :
    (element : Option CodeTree.TypeReference) →
      holes ((elementRef baseType rank element).exprs true) = 0
  | some element => by
      rw [elementRef, TypeRef.exprs]
      exact holes_typeRef element
  | none => by
      rw [elementRef, TypeRef.exprs, if_pos rfl]
      exact holes_qualify baseType

end

variable {σ : Type} (host : Host σ)

/-! ## Expressions -/

/-- What becomes of an expression that need not be there: nothing if it cannot be read, or else an
    expression with a hole for each required part in it that cannot be read. -/
structure ReadAs (unreadable : Bool) (required : List CodeTree.Expr) (e : Option Expr) : Prop where
  isNone_eq : e.isNone = unreadable
  holes_eq : holes (optionExprs true e) = unreadableIn required

theorem ReadAs.some {required : List CodeTree.Expr} {e : Expr}
    (h : holes (e.exprs true) = unreadableIn required) : ReadAs false required (some e) :=
  ⟨rfl, h⟩

mutual

theorem expr_readAs : (e : CodeTree.Expr) →
    (expr host e).Yields (ReadAs e.unreadable e.required)
  | ⟨form, source⟩ => by
      rw [expr, CodeTree.Expr.unreadable, CodeTree.Expr.required]
      exact exprForm_readAs source form

theorem operand_holes : (e : CodeTree.Expr) →
    (operand host e).Yields fun r => holes (r.exprs true) = unreadableIn e.slot
  | ⟨form, source⟩ => by
      rw [operand, CodeTree.unreadableIn_slot, CodeTree.Expr.unreadable, CodeTree.Expr.required]
      refine .bind (exprForm_readAs source form) fun r hr => .pure ?_
      rw [← hr.isNone_eq, ← hr.holes_eq]
      cases r with
      | none => simp [Expr.missing, ExprForm.expr, Expr.isMissing]
      | some r => rfl

theorem operands_holes : (es : List CodeTree.Expr) →
    (operands host es).Yields fun rs =>
      holes (exprsExprs true rs) = unreadableIn (CodeTree.exprsSlots es)
  | [] => .pure (by rw [CodeTree.exprsSlots]; rfl)
  | e :: es => by
      rw [operands, CodeTree.exprsSlots]
      refine .bind (operand_holes e) fun r hr => .bind (operands_holes es) fun rs hrs => .pure ?_
      simp [hr, hrs]

theorem nameOf_holes (name : String) : (target : Option CodeTree.Expr) →
    (nameOf host name target).Yields fun form =>
      holes (form.exprs true) = unreadableIn (CodeTree.optionSlot target) ∧ form ≠ .missing
  | none => .pure (by rw [CodeTree.optionSlot]; simp)
  | some target => by
      rw [nameOf, CodeTree.optionSlot]
      exact .bind (operand_holes target) fun r hr => .pure (by simp [hr])

theorem arraySizeOf_holes (count : Nat) (size : Int32) : (sizeExpr : Option CodeTree.Expr) →
    (arraySizeOf host count size sizeExpr).Yields fun r =>
      holes (r.exprs true) = unreadableIn (CodeTree.optionSlot sizeExpr)
  | none => .pure (by rw [CodeTree.optionSlot]; simp [Expr.literal, Expr.isMissing])
  | some sizeExpr => by
      rw [arraySizeOf, CodeTree.optionSlot]
      exact operand_holes sizeExpr

theorem exprForm_readAs (source : Option SourceContext) : (form : CodeTree.ExprForm) →
    (exprForm host source form).Yields (ReadAs form.unreadable form.required)
  | .unrecognized kind => by
      rw [exprForm, CodeTree.ExprForm.unreadable, CodeTree.ExprForm.required]
      exact .bind (.unexpected kind source) fun _ _ => .pure ⟨rfl, rfl⟩
  | .arrayCreate type initializers size sizeExpr => by
      rw [exprForm, CodeTree.ExprForm.required]
      refine .bind (operands_holes initializers) fun rs hrs => ?_
      refine .bind (arraySizeOf_holes rs.length size sizeExpr) fun r hr => .pure (.some ?_)
      simp [Expr.isMissing, hr, hrs, Nat.add_comm]
  | .arrayIndexer target indices => by
      rw [exprForm, CodeTree.ExprForm.required]
      refine .bind (operand_holes target) fun r hr => ?_
      refine .bind (operands_holes indices) fun rs hrs => .pure (.some ?_)
      simp [Expr.isMissing, hr, hrs]
  | .indexer target indices => by
      rw [exprForm, CodeTree.ExprForm.required]
      refine .bind (operand_holes target) fun r hr => ?_
      refine .bind (operands_holes indices) fun rs hrs => .pure (.some ?_)
      simp [Expr.isMissing, hr, hrs]
  | .binary left op right => by
      rw [exprForm, CodeTree.ExprForm.required]
      refine .bind (operand_holes left) fun l hl => .bind (operand_holes right) fun r hr => ?_
      split
      · exact .pure (.some (by simp [Expr.isMissing, hl, hr]))
      · exact .pure (.some (by simp [Expr.isMissing, hl, hr]))
  | .cast type inner => by
      rw [exprForm, CodeTree.ExprForm.required]
      refine .bind (operand_holes inner) fun r hr => .pure (.some ?_)
      simp [Expr.isMissing, hr]
  | .delegateCreate type target method => by
      rw [exprForm, CodeTree.ExprForm.required]
      refine .bind (operand_holes target) fun r hr => .pure (.some ?_)
      simp [Expr.isMissing, hr]
  | .delegateInvoke target arguments => by
      rw [exprForm, CodeTree.ExprForm.required]
      refine .bind (operand_holes target) fun r hr => ?_
      refine .bind (operands_holes arguments) fun rs hrs => .pure (.some ?_)
      simp [ExprForm.expr, Expr.isMissing, hr, hrs]
  | .direction .input inner => by
      -- the operand takes the place of the node, and is missed in its place too
      rw [exprForm, CodeTree.ExprForm.unreadable, CodeTree.ExprForm.required]
      exact expr_readAs inner
  | .direction .output inner => by
      rw [exprForm, CodeTree.ExprForm.required]
      · refine .bind (operand_holes inner) fun r hr => .pure (.some ?_)
        simp [Expr.isMissing, hr]
      · rintro ⟨⟩
  | .direction .reference inner => by
      rw [exprForm, CodeTree.ExprForm.required]
      · refine .bind (operand_holes inner) fun r hr => .pure (.some ?_)
        simp [Expr.isMissing, hr]
      · rintro ⟨⟩
  | .eventRef target name => by
      rw [exprForm, CodeTree.ExprForm.required]
      refine .bind (operand_holes target) fun r hr => .pure (.some ?_)
      simp [Expr.isMissing, hr]
  | .fieldRef target name => by
      rw [exprForm, CodeTree.ExprForm.required]
      refine .bind (nameOf_holes name target) fun form hf => .pure (.some ?_)
      simp [Expr.isMissing, hf.1, hf.2]
  | .methodInvoke target method arguments => by
      rw [exprForm, CodeTree.ExprForm.required]
      refine .bind (nameOf_holes method target) fun form hf => ?_
      refine .bind (operands_holes arguments) fun rs hrs => .pure (.some ?_)
      simp [ExprForm.expr, Expr.isMissing, hf.1, hf.2, hrs]
  | .methodRef target method => by
      rw [exprForm, CodeTree.ExprForm.required]
      refine .bind (nameOf_holes method target) fun form hf => .pure (.some ?_)
      simp [Expr.isMissing, hf.1, hf.2]
  | .objectCreate type arguments => by
      rw [exprForm, CodeTree.ExprForm.required]
      refine .bind (operands_holes arguments) fun rs hrs => .pure (.some ?_)
      simp [Expr.isMissing, hrs]
  | .propertyRef target name => by
      rw [exprForm, CodeTree.ExprForm.required]
      refine .bind (operand_holes target) fun r hr => .pure (.some ?_)
      simp [Expr.isMissing, hr]
  | .snippet value => by
      rw [exprForm, CodeTree.ExprForm.required]
      refine .bind (.snippetDocument host none value) fun _ _ => .pure (.some ?_)
      simp [Expr.isMissing]
  | .primitive value => by
      rw [exprForm, CodeTree.ExprForm.required]
      exact .pure (.some (by simp [Expr.literal, Expr.isMissing]))
  | .argumentRef _ | .baseRef | .setterValue | .thisRef | .typeOf _ | .typeRef _
  | .variableRef _ => by
      rw [exprForm, CodeTree.ExprForm.required]
      exact .pure (.some (by simp [Expr.isMissing]))

end

theorem exprOption_readAs (e : Option CodeTree.Expr) :
    (exprOption host e).Yields fun r =>
      r.isSome = filled e ∧
        holes (optionExprs true r) = unreadableIn (CodeTree.optionRequired e) := by
  cases e with
  | none => exact .pure ⟨rfl, rfl⟩
  | some e =>
      refine fun s => ⟨?_, (expr_readAs host e s).2⟩
      have hr := (expr_readAs host e s).1
      refine ⟨?_, hr.holes_eq⟩
      rw [filled, ← hr.isNone_eq, Option.not_isNone]
      rfl

/-! ## Statements -/

/-- What becomes of a statement: the kept statement, if there is one, with a hole for each required
    part that cannot be read. -/
structure LoweredTo (kept : List Kept) (required : List CodeTree.Expr) (s : Option Stmt) :
    Prop where
  kept_eq : labeledKept s = kept
  holes_eq : holes (labeledExprs true s) = unreadableIn required

/-- An empty list has no block. -/
theorem last_loweredTo {last : List CodeTree.Stmt} {rs : List Stmt}
    (h : stmtsKept rs = CodeTree.stmtsKept last ∧
      holes (stmtsExprs true rs) = unreadableIn (CodeTree.stmtsRequired last)) :
    (if last.isEmpty then none else some (Block.mk rs none)).isSome = !last.isEmpty ∧
    lastKept (if last.isEmpty then none else some (Block.mk rs none)) = CodeTree.stmtsKept last ∧
    holes (lastExprs true (if last.isEmpty then none else some (Block.mk rs none))) =
      unreadableIn (CodeTree.stmtsRequired last) := by
  cases last with
  | nil =>
      rw [CodeTree.stmtsKept, CodeTree.stmtsRequired]
      exact ⟨rfl, rfl, rfl⟩
  | cons s ss => exact ⟨rfl, h⟩

mutual

theorem stmt_loweredTo : (s : CodeTree.Stmt) →
    (stmt host s).Yields (LoweredTo s.kept s.required)
  | ⟨form, source⟩ => by
      rw [stmt, CodeTree.Stmt.kept, CodeTree.Stmt.required]
      exact stmtForm_loweredTo source form

theorem stmts_loweredTo : (ss : List CodeTree.Stmt) →
    (stmts host ss).Yields fun rs => stmtsKept rs = CodeTree.stmtsKept ss ∧
      holes (stmtsExprs true rs) = unreadableIn (CodeTree.stmtsRequired ss)
  | [] => .pure (by rw [stmtsKept, CodeTree.stmtsKept, CodeTree.stmtsRequired]; exact ⟨rfl, rfl⟩)
  | s :: ss => by
      rw [stmts, CodeTree.stmtsKept, CodeTree.stmtsRequired]
      refine .bind (stmt_loweredTo s) fun r hr => .bind (stmts_loweredTo ss) fun rs hrs => .pure ?_
      rw [stmtsKept_append, stmtsKept_toList, hr.kept_eq, hrs.1, stmtsExprs_append,
        stmtsExprs_toList, holes_append, hr.holes_eq, hrs.2, CodeTree.unreadableIn_append]
      exact ⟨rfl, rfl⟩

theorem stmtOption_loweredTo : (s : Option CodeTree.Stmt) →
    (stmtOption host s).Yields
      (LoweredTo (CodeTree.optionKept s) (CodeTree.stmtOptionRequired s))
  | none => .pure (by rw [CodeTree.optionKept, CodeTree.stmtOptionRequired]; exact ⟨rfl, rfl⟩)
  | some s => by
      rw [stmtOption, CodeTree.optionKept, CodeTree.stmtOptionRequired]
      exact stmt_loweredTo s

theorem catchers_loweredTo : (cs : List CodeTree.CatchClause) →
    (catchers host cs).Yields fun rs => catchersKept rs = CodeTree.catchesKept cs ∧
      holes (catchersExprs true rs) = unreadableIn (CodeTree.catchesRequired cs)
  | [] => .pure (by
      rw [catchersKept, CodeTree.catchesKept, CodeTree.catchesRequired]
      exact ⟨rfl, rfl⟩)
  | ⟨localName, exceptionType, statements⟩ :: cs => by
      rw [catchers, CodeTree.catchesKept, CodeTree.catchesRequired]
      refine .bind (stmts_loweredTo statements) fun ss hss => ?_
      refine .bind (catchers_loweredTo cs) fun rs hrs => .pure ?_
      rw [catchersKept, Block.kept, hss.1, hrs.1, CodeTree.unreadableIn_append, ← hss.2, ← hrs.2]
      refine ⟨rfl, ?_⟩
      cases exceptionType with
      | none => simp
      | some type => simp

theorem stmtForm_loweredTo (source : Option SourceContext) : (form : CodeTree.StmtForm) →
    (stmtForm host source form).Yields (LoweredTo form.kept form.required)
  | .unrecognized kind => by
      rw [stmtForm, CodeTree.StmtForm.kept, CodeTree.StmtForm.required]
      exact .bind (.unexpected kind source) fun _ _ => .pure ⟨rfl, rfl⟩
  | .comment _ => by
      rw [stmtForm, CodeTree.StmtForm.kept, CodeTree.StmtForm.required]
      exact .pure ⟨rfl, rfl⟩
  | .assign left right => by
      rw [stmtForm, CodeTree.StmtForm.kept, CodeTree.StmtForm.required]
      refine .bind (operand_holes host left) fun l hl => ?_
      exact .bind (operand_holes host right) fun r hr => .pure ⟨rfl, by simp [hl, hr]⟩
  | .attachEvent event listener => by
      rw [stmtForm, CodeTree.StmtForm.kept, CodeTree.StmtForm.required]
      refine .bind (operand_holes host event) fun l hl => ?_
      exact .bind (operand_holes host listener) fun r hr => .pure ⟨rfl, by simp [hl, hr]⟩
  | .removeEvent event listener => by
      rw [stmtForm, CodeTree.StmtForm.kept, CodeTree.StmtForm.required]
      refine .bind (operand_holes host event) fun l hl => ?_
      exact .bind (operand_holes host listener) fun r hr => .pure ⟨rfl, by simp [hl, hr]⟩
  | .condition condition whenTrue whenFalse => by
      rw [stmtForm, CodeTree.StmtForm.kept, CodeTree.StmtForm.required]
      refine .bind (operand_holes host condition) fun c hc => ?_
      refine .bind (stmts_loweredTo whenTrue) fun ts ht => ?_
      refine .bind (stmts_loweredTo whenFalse) fun fs hf => .pure ⟨?_, ?_⟩
      · rw [← ht.1, ← hf.1]
        rfl
      · simp [hc, ht.2, hf.2]
  | .expression expression => by
      rw [stmtForm, CodeTree.StmtForm.kept, CodeTree.StmtForm.required]
      refine .bind (expr_readAs host expression) fun r hr => ?_
      rw [← hr.isNone_eq]
      cases r with
      | none => exact .pure ⟨rfl, hr.holes_eq⟩
      | some r => exact .pure ⟨rfl, hr.holes_eq⟩
  | .goto label => by
      rw [stmtForm, CodeTree.StmtForm.kept, CodeTree.StmtForm.required]
      exact .pure ⟨rfl, rfl⟩
  | .iteration init test increment body => by
      rw [stmtForm, CodeTree.StmtForm.kept, CodeTree.StmtForm.required]
      refine .bind (stmtOption_loweredTo init) fun i hi => ?_
      refine .bind (exprOption_readAs host test) fun t ht => ?_
      refine .bind (stmtOption_loweredTo increment) fun n hn => ?_
      refine .bind (stmts_loweredTo body) fun ss hss => .pure ⟨?_, ?_⟩
      · rw [← hi.kept_eq, ← hn.kept_eq, ← stmtsKept_toList i, ← stmtsKept_toList n, ← ht.1,
          ← hss.1]
        rfl
      · simp [stmtsExprs_toList, hi.holes_eq, ht.2, hn.holes_eq, hss.2]
  | .labeled label statement => by
      rw [stmtForm, CodeTree.StmtForm.kept, CodeTree.StmtForm.required]
      refine .bind (stmtOption_loweredTo statement) fun s hs => .pure ⟨?_, hs.holes_eq⟩
      rw [← hs.kept_eq]
      rfl
  | .methodReturn value => by
      rw [stmtForm, CodeTree.StmtForm.kept, CodeTree.StmtForm.required]
      refine .bind (exprOption_readAs host value) fun r hr => .pure ⟨?_, hr.2⟩
      rw [← hr.1]
      rfl
  | .snippet value pragma => by
      rw [stmtForm, CodeTree.StmtForm.kept, CodeTree.StmtForm.required]
      exact .bind (.snippetDocument host pragma value) fun _ _ => .pure ⟨rfl, rfl⟩
  | .throwException value => by
      rw [stmtForm, CodeTree.StmtForm.kept, CodeTree.StmtForm.required]
      refine .bind (exprOption_readAs host value) fun r hr => .pure ⟨?_, hr.2⟩
      rw [← hr.1]
      rfl
  | .tryCatchFinally body catches last => by
      rw [stmtForm, CodeTree.StmtForm.kept, CodeTree.StmtForm.required]
      refine .bind (stmts_loweredTo body) fun bs hb => ?_
      refine .bind (catchers_loweredTo catches) fun cs hc => ?_
      refine .bind (stmts_loweredTo last) fun ls hl => .pure ?_
      obtain ⟨hsome, hkept, hholes⟩ := last_loweredTo hl
      refine ⟨?_, ?_⟩
      · rw [← hb.1, ← hc.1, ← hsome, ← hkept]
        rfl
      · simp only [labeledExprs, Stmt.exprs, StmtForm.exprs, Block.exprs, holes_append, hb.2, hc.2,
          hholes, CodeTree.unreadableIn_append, Nat.add_assoc]
  | .variableDeclaration name type init => by
      rw [stmtForm, CodeTree.StmtForm.kept, CodeTree.StmtForm.required]
      refine .bind (exprOption_readAs host init) fun r hr => .pure ⟨?_, by simp [hr.2]⟩
      rw [← hr.1]
      rfl

end

/-! ## Reports -/

/-- Each node of unknown shape adds one structural error. -/
theorem count_stmts (ss : List CodeTree.Stmt) (s : LoweringState σ) :
    (stmts host ss s).2.errors.count .structural =
      s.errors.count .structural + (CodeTree.stmtsUnknown ss).length := by
  rw [(stmts_reports host ss).errors, Sink.count, List.countP_append, List.countP_map]
  refine congrArg _ (List.countP_eq_length.mpr fun _ _ => rfl)

/-- There are as many holes in lowered statements as required parts that cannot be read. The
    statements that are kept, and those of their optional parts that are there, depend only on
    which expressions can be read: a statement goes if it is a comment, of unknown shape, or an
    expression that cannot be read, and an optional part that goes does not take its statement
    along. Without a structural error there are no holes. -/
theorem stmts_holes (ss : List CodeTree.Stmt) (s : LoweringState σ) :
    holes (stmtsExprs true (stmts host ss s).1) = unreadableIn (CodeTree.stmtsRequired ss) ∧
    stmtsKept (stmts host ss s).1 = CodeTree.stmtsKept ss ∧
    ((stmts host ss s).2.errors.count .structural = s.errors.count .structural →
      ∀ e ∈ stmtsExprs true (stmts host ss s).1, e.form ≠ .missing) := by
  obtain ⟨⟨hkept, hholes⟩, -⟩ := stmts_loweredTo host ss s
  refine ⟨hholes, hkept, fun hsame e he hmissing => ?_⟩
  rw [count_stmts] at hsame
  have hunread := CodeTree.unreadableIn_stmtsRequired_le ss
  have hone : 0 < holes (stmtsExprs true (stmts host ss s).1) :=
    List.countP_pos_iff.mpr ⟨e, he, by rw [Expr.isMissing, hmissing]⟩
  omega

theorem stmts_holes_deposit :
    (stmts AssemblyTable.host Sample.deposit.statements besideGuard).2.errors.count .structural =
      besideGuard.errors.count .structural ∧
    (stmtsExprs true (stmts AssemblyTable.host Sample.deposit.statements besideGuard).1).length =
      12 ∧
    ∀ e ∈ stmtsExprs true (stmts AssemblyTable.host Sample.deposit.statements besideGuard).1,
      e.form ≠ .missing := by
  have hsame : (stmts AssemblyTable.host Sample.deposit.statements besideGuard).2.errors.count
      .structural = besideGuard.errors.count .structural := by
    decide +kernel
  exact ⟨hsame, by decide +kernel,
    (stmts_holes AssemblyTable.host Sample.deposit.statements besideGuard).2.2 hsame⟩

end Lowering

end MiddleEnd
