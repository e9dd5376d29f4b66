/-
  Required parts of a code tree. A part is required where the lowered node needs something in its
  place: operands, receivers, arguments and other elements of lists, conditions, both sides of
  assignments and events, sizes of arrays. All other parts may be left out. An expression of unknown
  shape cannot be read, nor can one that only passes such an expression on as a value. Each required
  part that cannot be read has a node of unknown shape of its own
  (`unreadableIn_stmtsRequired_le`).
-/
import MiddleEnd.Proofs.CodeTree.Unknown

namespace MiddleEnd.CodeTree

/-! ## Expressions -/

mutual

/-- Nothing can be made of the expression. A value that is passed on is its operand. -/
def Expr.unreadable : Expr → Bool
  | ⟨form, _⟩ => form.unreadable

def ExprForm.unreadable : ExprForm → Bool
  | .unrecognized _ => true
  | .direction .input operand => operand.unreadable
  | _ => false

end

mutual

/-- The required parts of the expression and of the nodes in it, from left to right. -/
def Expr.required : Expr → List Expr
  | ⟨form, _⟩ => form.required

/-- A required part, and those in it. -/
def Expr.slot : Expr → List Expr
  | ⟨form, source⟩ => ⟨form, source⟩ :: form.required

def exprsSlots : List Expr → List Expr
  | [] => []
  | e :: es => e.slot ++ exprsSlots es

/-- A part that is required if it is there. -/
def optionSlot : Option Expr → List Expr
  | none => []
  | some e => e.slot

/-- What is passed on as a value has no node of its own, so its parts are those of the operand. -/
def ExprForm.required : ExprForm → List Expr
  | .arrayCreate _ initializers _ sizeExpr => exprsSlots initializers ++ optionSlot sizeExpr
  | .arrayIndexer target indices => target.slot ++ exprsSlots indices
  | .indexer target indices => target.slot ++ exprsSlots indices
  | .binary left _ right => left.slot ++ right.slot
  | .cast _ operand => operand.slot
  | .delegateCreate _ target _ => target.slot
  | .delegateInvoke target arguments => target.slot ++ exprsSlots arguments
  | .direction .input operand => operand.required
  | .direction .output operand => operand.slot
  | .direction .reference operand => operand.slot
  | .eventRef target _ => target.slot
  | .fieldRef target _ => optionSlot target
  | .methodInvoke target _ arguments => optionSlot target ++ exprsSlots arguments
  | .methodRef target _ => optionSlot target
  | .objectCreate _ arguments => exprsSlots arguments
  | .propertyRef target _ => target.slot
  | .unrecognized _ | .argumentRef _ | .baseRef | .primitive _ | .setterValue | .snippet _
  | .thisRef | .typeOf _ | .typeRef _ | .variableRef _ => []

end

/-- A part that may be left out, so that only the parts in it are required. -/
def optionRequired : Option Expr → List Expr
  | none => []
  | some e => e.required

/-! ## Statements -/

mutual

def Stmt.required : Stmt → List Expr
  | ⟨form, _⟩ => form.required

def StmtForm.required : StmtForm → List Expr
  | .assign left right => left.slot ++ right.slot
  | .attachEvent event listener => event.slot ++ listener.slot
  | .removeEvent event listener => event.slot ++ listener.slot
  | .condition condition whenTrue whenFalse =>
    condition.slot ++ (stmtsRequired whenTrue ++ stmtsRequired whenFalse)
  | .expression expression => expression.required
  | .iteration init test increment body =>
    stmtOptionRequired init ++
      (optionRequired test ++ (stmtOptionRequired increment ++ stmtsRequired body))
  | .labeled _ statement => stmtOptionRequired statement
  | .methodReturn value => optionRequired value
  | .throwException value => optionRequired value
  | .tryCatchFinally body catches last =>
    stmtsRequired body ++ (catchesRequired catches ++ stmtsRequired last)
  | .variableDeclaration _ _ init => optionRequired init
  | .unrecognized _ | .comment _ | .goto _ | .snippet _ _ => []

def stmtsRequired : List Stmt → List Expr
  | [] => []
  | s :: ss => s.required ++ stmtsRequired ss

def stmtOptionRequired : Option Stmt → List Expr
  | none => []
  | some s => s.required

def catchesRequired : List CatchClause → List Expr
  | [] => []
  | ⟨_, _, statements⟩ :: cs => stmtsRequired statements ++ catchesRequired cs

end

/-! ## Unreadable parts and nodes of unknown shape -/

mutual

/-- What cannot be read is one node of unknown shape, and nothing in it is required. -/
theorem Expr.of_unreadable : (e : Expr) → e.unreadable = true →
    e.required = [] ∧ e.unknown.length = 1
  | ⟨form, source⟩ => by
      rw [Expr.unreadable, Expr.required, Expr.unknown]
      exact ExprForm.of_unreadable source form

theorem ExprForm.of_unreadable (source : Option SourceContext) : (form : ExprForm) →
    form.unreadable = true → form.required = [] ∧ (form.unknown source).length = 1
  | .unrecognized kind => fun _ => by
      rw [ExprForm.required, ExprForm.unknown]
      exact ⟨rfl, rfl⟩
  | .direction .input operand => by
      rw [ExprForm.unreadable, ExprForm.required, ExprForm.unknown]
      exact Expr.of_unreadable operand
  | .direction .output _ | .direction .reference _ | .arrayCreate _ _ _ _ | .arrayIndexer _ _
  | .indexer _ _ | .binary _ _ _ | .cast _ _ | .delegateCreate _ _ _ | .delegateInvoke _ _
  | .eventRef _ _ | .fieldRef _ _ | .methodInvoke _ _ _ | .methodRef _ _ | .objectCreate _ _
  | .propertyRef _ _ | .argumentRef _ | .baseRef | .primitive _ | .setterValue | .snippet _
  | .thisRef | .typeOf _ | .typeRef _ | .variableRef _ => fun h => by
      simp [ExprForm.unreadable] at h

end

/-- How many of the parts cannot be read. -/
def unreadableIn (es : List Expr) : Nat := es.countP Expr.unreadable

@[simp]
theorem unreadableIn_nil : unreadableIn [] = 0 := rfl

@[simp]
theorem unreadableIn_append (first rest : List Expr) :
    unreadableIn (first ++ rest) = unreadableIn first + unreadableIn rest :=
  List.countP_append

/-- A required part counts itself, or else what is in it. -/
theorem unreadableIn_slot (e : Expr) :
    unreadableIn e.slot = if e.unreadable then 1 else unreadableIn e.required := by
  have hslot : e.slot = e :: e.required := by
    obtain ⟨form, source⟩ := e
    rw [Expr.slot, Expr.required]
  rw [hslot, unreadableIn, List.countP_cons]
  cases hu : e.unreadable with
  | true =>
      rw [(e.of_unreadable hu).1]
      rfl
  | false => rfl

theorem unreadableIn_slot_le {e : Expr} (h : unreadableIn e.required ≤ e.unknown.length) :
    unreadableIn e.slot ≤ e.unknown.length := by
  rw [unreadableIn_slot]
  split
  · rename_i hu
    exact Nat.le_of_eq (e.of_unreadable hu).2.symm
  · exact h

mutual

theorem Expr.unreadableIn_required_le : (e : Expr) →
    unreadableIn e.required ≤ e.unknown.length
  | ⟨form, source⟩ => by
      rw [Expr.required, Expr.unknown]
      exact form.unreadableIn_required_le source

theorem unreadableIn_exprsSlots_le : (es : List Expr) →
    unreadableIn (exprsSlots es) ≤ (exprsUnknown es).length
  | [] => by
      rw [exprsSlots]
      exact Nat.zero_le _
  | e :: es => by
      rw [exprsSlots, exprsUnknown, unreadableIn_append, List.length_append]
      exact Nat.add_le_add (unreadableIn_slot_le e.unreadableIn_required_le)
        (unreadableIn_exprsSlots_le es)

theorem unreadableIn_optionSlot_le : (e : Option Expr) →
    unreadableIn (optionSlot e) ≤ (optionUnknown e).length
  | none => by
      rw [optionSlot]
      exact Nat.zero_le _
  | some e => by
      rw [optionSlot, optionUnknown]
      exact unreadableIn_slot_le e.unreadableIn_required_le

theorem ExprForm.unreadableIn_required_le (source : Option SourceContext) : (form : ExprForm) →
    unreadableIn form.required ≤ (form.unknown source).length
  | .arrayCreate _ initializers _ sizeExpr => by
      rw [ExprForm.required, ExprForm.unknown, unreadableIn_append, List.length_append]
      exact Nat.add_le_add (unreadableIn_exprsSlots_le initializers)
        (unreadableIn_optionSlot_le sizeExpr)
  | .arrayIndexer target elements | .indexer target elements
  | .delegateInvoke target elements => by
      rw [ExprForm.required, ExprForm.unknown, unreadableIn_append, List.length_append]
      exact Nat.add_le_add (unreadableIn_slot_le target.unreadableIn_required_le)
        (unreadableIn_exprsSlots_le elements)
  | .binary left _ right => by
      rw [ExprForm.required, ExprForm.unknown, unreadableIn_append, List.length_append]
      exact Nat.add_le_add (unreadableIn_slot_le left.unreadableIn_required_le)
        (unreadableIn_slot_le right.unreadableIn_required_le)
  | .cast _ operand | .delegateCreate _ operand _ | .direction .output operand
  | .direction .reference operand | .eventRef operand _ | .propertyRef operand _ => by
      rw [ExprForm.required, ExprForm.unknown]
      exact unreadableIn_slot_le operand.unreadableIn_required_le
  | .direction .input operand => by
      rw [ExprForm.required, ExprForm.unknown]
      exact operand.unreadableIn_required_le
  | .fieldRef target _ | .methodRef target _ => by
      rw [ExprForm.required, ExprForm.unknown]
      exact unreadableIn_optionSlot_le target
  | .methodInvoke target _ arguments => by
      rw [ExprForm.required, ExprForm.unknown, unreadableIn_append, List.length_append]
      exact Nat.add_le_add (unreadableIn_optionSlot_le target)
        (unreadableIn_exprsSlots_le arguments)
  | .objectCreate _ arguments => by
      rw [ExprForm.required, ExprForm.unknown]
      exact unreadableIn_exprsSlots_le arguments
  | .unrecognized _ | .argumentRef _ | .baseRef | .primitive _ | .setterValue | .snippet _
  | .thisRef | .typeOf _ | .typeRef _ | .variableRef _ => by
      rw [ExprForm.required]
      exact Nat.zero_le _

end

theorem unreadableIn_optionRequired_le (e : Option Expr) :
    unreadableIn (optionRequired e) ≤ (optionUnknown e).length := by
  cases e with
  | none => exact Nat.zero_le _
  | some e =>
      rw [optionUnknown]
      exact e.unreadableIn_required_le

mutual

theorem Stmt.unreadableIn_required_le : (s : Stmt) →
    unreadableIn s.required ≤ s.unknown.length
  | ⟨form, source⟩ => by
      rw [Stmt.required, Stmt.unknown]
      exact form.unreadableIn_required_le source

theorem StmtForm.unreadableIn_required_le (source : Option SourceContext) : (form : StmtForm) →
    unreadableIn form.required ≤ (form.unknown source).length
  | .assign left right | .attachEvent left right | .removeEvent left right => by
      rw [StmtForm.required, StmtForm.unknown, unreadableIn_append, List.length_append]
      exact Nat.add_le_add (unreadableIn_slot_le left.unreadableIn_required_le)
        (unreadableIn_slot_le right.unreadableIn_required_le)
  | .condition condition whenTrue whenFalse => by
      rw [StmtForm.required, StmtForm.unknown]
      simp only [unreadableIn_append, List.length_append]
      exact Nat.add_le_add (unreadableIn_slot_le condition.unreadableIn_required_le)
        (Nat.add_le_add (unreadableIn_stmtsRequired_le whenTrue)
          (unreadableIn_stmtsRequired_le whenFalse))
  | .expression expression => by
      rw [StmtForm.required, StmtForm.unknown]
      exact expression.unreadableIn_required_le
  | .iteration init test increment body => by
      rw [StmtForm.required, StmtForm.unknown]
      simp only [unreadableIn_append, List.length_append]
      exact Nat.add_le_add (unreadableIn_stmtOptionRequired_le init)
        (Nat.add_le_add (unreadableIn_optionRequired_le test)
          (Nat.add_le_add (unreadableIn_stmtOptionRequired_le increment)
            (unreadableIn_stmtsRequired_le body)))
  | .labeled _ statement => by
      rw [StmtForm.required, StmtForm.unknown]
      exact unreadableIn_stmtOptionRequired_le statement
  | .methodReturn value | .throwException value | .variableDeclaration _ _ value => by
      rw [StmtForm.required, StmtForm.unknown]
      exact unreadableIn_optionRequired_le value
  | .tryCatchFinally body catches last => by
      rw [StmtForm.required, StmtForm.unknown]
      simp only [unreadableIn_append, List.length_append]
      exact Nat.add_le_add (unreadableIn_stmtsRequired_le body)
        (Nat.add_le_add (unreadableIn_catchesRequired_le catches)
          (unreadableIn_stmtsRequired_le last))
  | .unrecognized _ | .comment _ | .goto _ | .snippet _ _ => by
      rw [StmtForm.required]
      exact Nat.zero_le _

/-- Every required part that cannot be read has its own node of unknown shape. -/
theorem unreadableIn_stmtsRequired_le : (ss : List Stmt) →
    unreadableIn (stmtsRequired ss) ≤ (stmtsUnknown ss).length
  | [] => by
      rw [stmtsRequired]
      exact Nat.zero_le _
  | s :: ss => by
      rw [stmtsRequired, stmtsUnknown, unreadableIn_append, List.length_append]
      exact Nat.add_le_add s.unreadableIn_required_le (unreadableIn_stmtsRequired_le ss)

theorem unreadableIn_stmtOptionRequired_le : (s : Option Stmt) →
    unreadableIn (stmtOptionRequired s) ≤ (stmtOptionUnknown s).length
  | none => by
      rw [stmtOptionRequired]
      exact Nat.zero_le _
  | some s => by
      rw [stmtOptionRequired, stmtOptionUnknown]
      exact s.unreadableIn_required_le

theorem unreadableIn_catchesRequired_le : (cs : List CatchClause) →
    unreadableIn (catchesRequired cs) ≤ (catchesUnknown cs).length
  | [] => by
      rw [catchesRequired]
      exact Nat.zero_le _
  | ⟨_, _, statements⟩ :: cs => by
      rw [catchesRequired, catchesUnknown, unreadableIn_append, List.length_append]
      exact Nat.add_le_add (unreadableIn_stmtsRequired_le statements)
        (unreadableIn_catchesRequired_le cs)

end

end MiddleEnd.CodeTree
