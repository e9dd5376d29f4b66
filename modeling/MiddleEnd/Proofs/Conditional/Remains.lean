/-
  The expressions of pruned code. Outside types, each of them is an expression of the code that was
  pruned itself, in the same order (`pruneBlock_exprs`). So what elimination leaves has no forms
  that were not there.
-/
import MiddleEnd.Proofs.Conditional.Deletion

namespace MiddleEnd.Conditional

section

variable (dead : Expr → Bool) [DecidablePred (Deleted dead)]

/-- The expressions are pruned ones of the others, in their order. -/
abbrev Remains (es es' : List Expr) : Prop := es'.Sublist (es.map (pruneExpr dead))

variable {dead}

theorem Remains.append {es es' fs fs' : List Expr} (h : Remains dead es es')
    (hf : Remains dead fs fs') : Remains dead (es ++ fs) (es' ++ fs') := by
  rw [Remains, List.map_append]
  exact List.Sublist.append h hf

theorem Remains.none (es : List Expr) : Remains dead es [] := List.nil_sublist _

variable (dead)

mutual

theorem pruneExpr_exprs : (e : Expr) →
    Remains dead (e.exprs false) ((pruneExpr dead e).exprs false)
  | ⟨form, type, source⟩ => by
    rw [pruneExpr, Expr.exprs, Expr.exprs, typeExprs_false, List.append_nil, List.append_nil]
    exact (pruneForm_exprs form).cons_cons _
termination_by structural x => x

theorem pruneForm_exprs : (form : ExprForm) →
    Remains dead (form.exprs false) ((pruneForm dead form).exprs false)
  | .qualified qualifier _ => pruneExpr_exprs qualifier
  | .binary _ left right => (pruneExpr_exprs left).append (pruneExpr_exprs right)
  | .assignment statement => pruneStmt_exprs statement
  | .cast operand target => by
    simpa [pruneForm] using pruneExpr_exprs operand
  | .indexer object operands => (pruneExpr_exprs object).append (pruneExprs_exprs operands)
  | .constructArray _ size initializers => by
    simpa [pruneForm] using (pruneExpr_exprs size).append (pruneExprs_exprs initializers)
  | .construct _ operands => by
    simpa [pruneForm] using pruneExprs_exprs operands
  | .constructDelegate _ target _ => by
    simpa [pruneForm] using pruneExpr_exprs target
  | .call callee arguments => (pruneExpr_exprs callee).append (pruneExprs_exprs arguments)
  | .member receiver _ => pruneReceiver_exprs receiver
  | .addressOf operand => pruneExpr_exprs operand
  | .block block => pruneBlock_exprs block
  | .literal _ | .identifier _ | .thisRef | .baseRef | .setterValue | .typeExpr _ | .typeOf _
  | .snippet | .temporary _ | .missing => by simp [pruneForm]
termination_by structural x => x

theorem pruneReceiver_exprs : (receiver : Option Expr) →
    Remains dead (optionExprs false receiver) (optionExprs false (pruneReceiver dead receiver))
  | none => .none _
  | some receiver => pruneExpr_exprs receiver
termination_by structural x => x

theorem pruneExprs_exprs : (es : List Expr) →
    Remains dead (exprsExprs false es) (exprsExprs false (pruneExprs dead es))
  | [] => .none _
  | e :: es => (pruneExpr_exprs e).append (pruneExprs_exprs es)
termination_by structural x => x

theorem pruneOption_exprs : (e : Option Expr) →
    Remains dead (optionExprs false e) (optionExprs false (pruneOption dead e))
  | none => .none _
  | some e => by
    rw [pruneOption]
    split
    · exact .none _
    · exact pruneExpr_exprs e
termination_by structural x => x

theorem pruneStmt_exprs : (s : Stmt) →
    Remains dead (s.exprs false) ((pruneStmt dead s).exprs false)
  | ⟨form, _⟩ => pruneStmtForm_exprs form
termination_by structural x => x

theorem pruneStmtForm_exprs : (form : StmtForm) →
    Remains dead (form.exprs false) ((pruneStmtForm dead form).exprs false)
  | .assignment target value => (pruneExpr_exprs target).append (pruneExpr_exprs value)
  | .attachEvent event handler => (pruneExpr_exprs event).append (pruneExpr_exprs handler)
  | .removeEvent event handler => (pruneExpr_exprs event).append (pruneExpr_exprs handler)
  | .branch condition whenTrue whenFalse =>
    ((pruneExpr_exprs condition).append (pruneBlock_exprs whenTrue)).append
      (pruneBlock_exprs whenFalse)
  | .expression expression => pruneExpr_exprs expression
  | .goto _ => .none _
  | .labeled _ statement => pruneLabeled_exprs statement
  | .loop init test increment body =>
    (((pruneStmts_exprs init).append (pruneOption_exprs test)).append
      (pruneStmts_exprs increment)).append (pruneBlock_exprs body)
  | .ret value => pruneOption_exprs value
  | .raise value => pruneOption_exprs value
  | .protect body catchers last =>
    ((pruneBlock_exprs body).append (pruneCatchers_exprs catchers)).append (pruneLast_exprs last)
  | .declaration _ type init => by
    simpa [pruneStmtForm] using pruneOption_exprs init
  | .snippet => .none _
  | .block block => pruneBlock_exprs block
termination_by structural x => x

theorem pruneLabeled_exprs : (s : Option Stmt) →
    Remains dead (labeledExprs false s) (labeledExprs false (pruneLabeled dead s))
  | none => .none _
  | some s => by
    rw [pruneLabeled]
    split
    · exact .none _
    · exact pruneStmt_exprs s
termination_by structural x => x

theorem pruneStmts_exprs : (ss : List Stmt) →
    Remains dead (stmtsExprs false ss) (stmtsExprs false (pruneStmts dead ss))
  | [] => .none _
  | s :: ss => by
    rw [pruneStmts]
    split
    · exact (Remains.none (s.exprs false)).append (pruneStmts_exprs ss)
    · exact (pruneStmt_exprs s).append (pruneStmts_exprs ss)
termination_by structural x => x

theorem pruneCatchers_exprs : (cs : List Catcher) →
    Remains dead (catchersExprs false cs) (catchersExprs false (pruneCatchers dead cs))
  | [] => .none _
  | ⟨type, name, block⟩ :: cs => by
    simpa [pruneCatchers] using (pruneBlock_exprs block).append (pruneCatchers_exprs cs)
termination_by structural x => x

theorem pruneLast_exprs : (block : Option Block) →
    Remains dead (lastExprs false block) (lastExprs false (pruneLast dead block))
  | none => .none _
  | some block => pruneBlock_exprs block
termination_by structural x => x

theorem pruneBlock_exprs : (block : Block) →
    Remains dead (block.exprs false) ((pruneBlock dead block).exprs false)
  | ⟨statements, _⟩ => pruneStmts_exprs statements
termination_by structural x => x

end

end

/-- An expression that elimination leaves is what is left of an expression of the code. -/
theorem exists_of_mem_keepBlock {dead : Expr → Bool} {block : Block} {e' : Expr}
    (h : e' ∈ (keepBlock dead block).exprs false) :
    ∃ e ∈ block.exprs false, pruneExpr dead e = e' := by
  rw [keepBlock_eq] at h
  exact List.mem_map.mp ((pruneBlock_exprs dead block).subset h)

end MiddleEnd.Conditional
