/-
  Every place where code reads a temporary, with the temporaries that are assigned by then: by an
  earlier statement of the same list, or of a list around it. Being assigned to is not being read.
-/
import MiddleEnd.Proofs.Code.Occurrence

namespace MiddleEnd

structure Read where
  id : LocalId
  assigned : List LocalId

def Read.Defined (r : Read) : Prop := r.id ∈ r.assigned

instance (r : Read) : Decidable r.Defined := inferInstanceAs (Decidable (r.id ∈ r.assigned))

mutual

def Expr.reads (assigned : List LocalId) : Expr → List Read
  | ⟨form, _, _⟩ => form.reads assigned

def ExprForm.reads (assigned : List LocalId) : ExprForm → List Read
  | .literal _ => []
  | .identifier _ => []
  | .qualified qualifier _ => qualifier.reads assigned
  | .thisRef => []
  | .baseRef => []
  | .setterValue => []
  | .binary _ left right => left.reads assigned ++ right.reads assigned
  | .assignment statement => statement.reads assigned
  | .cast operand _ => operand.reads assigned
  | .indexer object operands => object.reads assigned ++ exprsReads assigned operands
  | .constructArray _ size initializers => size.reads assigned ++ exprsReads assigned initializers
  | .construct _ operands => exprsReads assigned operands
  | .constructDelegate _ target _ => target.reads assigned
  | .call callee arguments => callee.reads assigned ++ exprsReads assigned arguments
  | .member receiver _ => optionReads assigned receiver
  | .typeExpr _ => []
  | .typeOf _ => []
  | .addressOf operand => operand.reads assigned
  | .snippet => []
  | .block block => block.reads assigned
  | .temporary id => [⟨id, assigned⟩]
  | .missing => []

def optionReads (assigned : List LocalId) : Option Expr → List Read
  | none => []
  | some e => e.reads assigned

def exprsReads (assigned : List LocalId) : List Expr → List Read
  | [] => []
  | e :: es => e.reads assigned ++ exprsReads assigned es

def Stmt.reads (assigned : List LocalId) : Stmt → List Read
  | ⟨form, _⟩ => form.reads assigned

def StmtForm.reads (assigned : List LocalId) : StmtForm → List Read
  | .assignment target value =>
    (if target.temporary?.isSome then [] else target.reads assigned) ++ value.reads assigned
  | .attachEvent event handler => event.reads assigned ++ handler.reads assigned
  | .removeEvent event handler => event.reads assigned ++ handler.reads assigned
  | .branch condition whenTrue whenFalse =>
    condition.reads assigned ++ whenTrue.reads assigned ++ whenFalse.reads assigned
  | .expression expression => expression.reads assigned
  | .goto _ => []
  | .labeled _ statement => labeledReads assigned statement
  | .loop init test increment body =>
    stmtsReads assigned init ++ optionReads assigned test ++ stmtsReads assigned increment
      ++ body.reads assigned
  | .ret value => optionReads assigned value
  | .raise value => optionReads assigned value
  | .protect body catchers last =>
    body.reads assigned ++ catchersReads assigned catchers ++ lastReads assigned last
  | .declaration _ _ init => optionReads assigned init
  | .snippet => []
  | .block block => block.reads assigned

def labeledReads (assigned : List LocalId) : Option Stmt → List Read
  | none => []
  | some statement => statement.reads assigned

/-- What a statement assigns is there for the statements behind it. -/
def stmtsReads (assigned : List LocalId) : List Stmt → List Read
  | [] => []
  | s :: ss => s.reads assigned ++ stmtsReads (assigned ++ s.assigned?.toList) ss

def catchersReads (assigned : List LocalId) : List Catcher → List Read
  | [] => []
  | ⟨_, _, block⟩ :: cs => block.reads assigned ++ catchersReads assigned cs

def lastReads (assigned : List LocalId) : Option Block → List Read
  | none => []
  | some block => block.reads assigned

def Block.reads (assigned : List LocalId) : Block → List Read
  | ⟨statements, _⟩ => stmtsReads assigned statements

end

attribute [simp] Expr.reads ExprForm.reads optionReads exprsReads Stmt.reads StmtForm.reads
  labeledReads stmtsReads catchersReads lastReads Block.reads

/-- Every read is of a temporary that is assigned. -/
def AllDefined (rs : List Read) : Prop := ∀ r ∈ rs, r.Defined

instance (rs : List Read) : Decidable (AllDefined rs) :=
  inferInstanceAs (Decidable (∀ r ∈ rs, r.Defined))

@[simp]
theorem allDefined_nil : AllDefined [] := by simp [AllDefined]

@[simp]
theorem allDefined_append {rs ts : List Read} :
    AllDefined (rs ++ ts) ↔ AllDefined rs ∧ AllDefined ts :=
  List.forall_mem_append

@[simp]
theorem allDefined_cons {r : Read} {rs : List Read} :
    AllDefined (r :: rs) ↔ r.Defined ∧ AllDefined rs :=
  List.forall_mem_cons

end MiddleEnd
