/-
  What code does with temporaries: where they occur, where they are assigned a value, and where
  they are read. Assignments are found among all statements of the code, those inside expressions
  included.
-/
import MiddleEnd.Proofs.Code.Read

namespace MiddleEnd

mutual

def Expr.stmts : Expr → List Stmt
  | ⟨form, _, _⟩ => form.stmts

def ExprForm.stmts : ExprForm → List Stmt
  | .literal _ => []
  | .identifier _ => []
  | .qualified qualifier _ => qualifier.stmts
  | .thisRef => []
  | .baseRef => []
  | .setterValue => []
  | .binary _ left right => left.stmts ++ right.stmts
  | .assignment statement => statement.stmts
  | .cast operand _ => operand.stmts
  | .indexer object operands => object.stmts ++ exprsStmts operands
  | .constructArray _ size initializers => size.stmts ++ exprsStmts initializers
  | .construct _ operands => exprsStmts operands
  | .constructDelegate _ target _ => target.stmts
  | .call callee arguments => callee.stmts ++ exprsStmts arguments
  | .member receiver _ => optionStmts receiver
  | .typeExpr _ => []
  | .typeOf _ => []
  | .addressOf operand => operand.stmts
  | .snippet => []
  | .block block => block.stmts
  | .temporary _ => []
  | .missing => []

def optionStmts : Option Expr → List Stmt
  | none => []
  | some e => e.stmts

def exprsStmts : List Expr → List Stmt
  | [] => []
  | e :: es => e.stmts ++ exprsStmts es

/-- The statement itself, then those in its parts. -/
def Stmt.stmts : Stmt → List Stmt
  | ⟨form, source⟩ => ⟨form, source⟩ :: form.stmts

def StmtForm.stmts : StmtForm → List Stmt
  | .assignment target value => target.stmts ++ value.stmts
  | .attachEvent event handler => event.stmts ++ handler.stmts
  | .removeEvent event handler => event.stmts ++ handler.stmts
  | .branch condition whenTrue whenFalse => condition.stmts ++ whenTrue.stmts ++ whenFalse.stmts
  | .expression expression => expression.stmts
  | .goto _ => []
  | .labeled _ statement => labeledStmts statement
  | .loop init test increment body =>
    stmtsStmts init ++ optionStmts test ++ stmtsStmts increment ++ body.stmts
  | .ret value => optionStmts value
  | .raise value => optionStmts value
  | .protect body catchers last => body.stmts ++ catchersStmts catchers ++ lastStmts last
  | .declaration _ _ init => optionStmts init
  | .snippet => []
  | .block block => block.stmts

def labeledStmts : Option Stmt → List Stmt
  | none => []
  | some statement => statement.stmts

def stmtsStmts : List Stmt → List Stmt
  | [] => []
  | s :: ss => s.stmts ++ stmtsStmts ss

def catchersStmts : List Catcher → List Stmt
  | [] => []
  | ⟨_, _, block⟩ :: cs => block.stmts ++ catchersStmts cs

def lastStmts : Option Block → List Stmt
  | none => []
  | some block => block.stmts

def Block.stmts : Block → List Stmt
  | ⟨statements, _⟩ => stmtsStmts statements

end

attribute [simp] Expr.stmts ExprForm.stmts optionStmts exprsStmts Stmt.stmts StmtForm.stmts
  labeledStmts stmtsStmts catchersStmts lastStmts Block.stmts

/-! ## Temporaries -/

/-- The temporaries among the expressions, once for each occurrence. -/
def temporaries (es : List Expr) : List LocalId := es.filterMap Expr.temporary?

@[simp]
theorem temporaries_nil : temporaries [] = [] := rfl

@[simp]
theorem temporaries_cons (e : Expr) (es : List Expr) :
    temporaries (e :: es) = e.temporary?.toList ++ temporaries es :=
  filterMap_cons_toList _ e es

@[simp]
theorem temporaries_append (es fs : List Expr) :
    temporaries (es ++ fs) = temporaries es ++ temporaries fs :=
  List.filterMap_append

/-- The temporaries that the statements assign to, once for each assignment. -/
def stores (ss : List Stmt) : List LocalId := ss.filterMap Stmt.assigned?

@[simp]
theorem stores_nil : stores [] = [] := rfl

@[simp]
theorem stores_cons (s : Stmt) (ss : List Stmt) :
    stores (s :: ss) = s.assigned?.toList ++ stores ss :=
  filterMap_cons_toList _ s ss

@[simp]
theorem stores_append (ss ts : List Stmt) : stores (ss ++ ts) = stores ss ++ stores ts :=
  List.filterMap_append

/-- What a piece of code does with temporaries. -/
structure Usage where
  occurring : List LocalId
  stored : List LocalId
  /-- The reads, behind temporaries that are assigned before the code. -/
  reads : List LocalId → List Read

def Usage.append (a b : Usage) : Usage where
  occurring := a.occurring ++ b.occurring
  stored := a.stored ++ b.stored
  reads assigned := a.reads assigned ++ b.reads assigned

def Expr.usage (e : Expr) : Usage where
  occurring := temporaries (e.exprs false)
  stored := stores e.stmts
  reads assigned := e.reads assigned

def optionUsage (e : Option Expr) : Usage where
  occurring := temporaries (optionExprs false e)
  stored := stores (optionStmts e)
  reads assigned := optionReads assigned e

def exprsUsage (es : List Expr) : Usage where
  occurring := temporaries (exprsExprs false es)
  stored := stores (exprsStmts es)
  reads assigned := exprsReads assigned es

def Stmt.usage (s : Stmt) : Usage where
  occurring := temporaries (s.exprs false)
  stored := stores s.stmts
  reads assigned := s.reads assigned

def labeledUsage (s : Option Stmt) : Usage where
  occurring := temporaries (labeledExprs false s)
  stored := stores (labeledStmts s)
  reads assigned := labeledReads assigned s

def stmtsUsage (ss : List Stmt) : Usage where
  occurring := temporaries (stmtsExprs false ss)
  stored := stores (stmtsStmts ss)
  reads assigned := stmtsReads assigned ss

def catchersUsage (cs : List Catcher) : Usage where
  occurring := temporaries (catchersExprs false cs)
  stored := stores (catchersStmts cs)
  reads assigned := catchersReads assigned cs

def lastUsage (b : Option Block) : Usage where
  occurring := temporaries (lastExprs false b)
  stored := stores (lastStmts b)
  reads assigned := lastReads assigned b

def Block.usage (b : Block) : Usage where
  occurring := temporaries (b.exprs false)
  stored := stores b.stmts
  reads assigned := b.reads assigned

end MiddleEnd
