/-
  Code without its sources. A snippet keeps its source, which holds the text that the snippet is;
  every other node loses it. Types are left alone. Nothing of this shows in the text of code
  (`Expr.text_sourceless`), so what goes by texts cannot tell code from its sourceless form.
-/
import MiddleEnd.Code.Text

namespace MiddleEnd

/-- The source of an expression, if it is a snippet. -/
def ExprForm.ownSource (source : Option SourceContext) : ExprForm → Option SourceContext
  | .snippet => source
  | _ => none

/-- The source of a statement, if it is a snippet. -/
def StmtForm.ownSource (source : Option SourceContext) : StmtForm → Option SourceContext
  | .snippet => source
  | _ => none

mutual

def Expr.sourceless : Expr → Expr
  | ⟨form, type, source⟩ => ⟨form.sourceless, type, form.ownSource source⟩

def ExprForm.sourceless : ExprForm → ExprForm
  | .member receiver ref => .member (exprSourceless receiver) ref
  | .call callee arguments => .call callee.sourceless (exprsSourceless arguments)
  | .qualified qualifier name => .qualified qualifier.sourceless name
  | .binary op left right => .binary op left.sourceless right.sourceless
  | .assignment statement => .assignment statement.sourceless
  | .cast operand target => .cast operand.sourceless target
  | .indexer object operands => .indexer object.sourceless (exprsSourceless operands)
  | .constructArray element size initializers =>
    .constructArray element size.sourceless (exprsSourceless initializers)
  | .construct type operands => .construct type (exprsSourceless operands)
  | .constructDelegate type target method => .constructDelegate type target.sourceless method
  | .addressOf operand => .addressOf operand.sourceless
  | .block block => .block block.sourceless
  | .literal l => .literal l
  | .identifier name => .identifier name
  | .thisRef => .thisRef
  | .baseRef => .baseRef
  | .setterValue => .setterValue
  | .typeExpr type => .typeExpr type
  | .typeOf type => .typeOf type
  | .snippet => .snippet
  | .temporary id => .temporary id
  | .missing => .missing

def exprSourceless : Option Expr → Option Expr
  | none => none
  | some e => some e.sourceless

def exprsSourceless : List Expr → List Expr
  | [] => []
  | e :: es => e.sourceless :: exprsSourceless es

def Stmt.sourceless : Stmt → Stmt
  | ⟨form, source⟩ => ⟨form.sourceless, form.ownSource source⟩

def StmtForm.sourceless : StmtForm → StmtForm
  | .assignment target value => .assignment target.sourceless value.sourceless
  | .attachEvent event handler => .attachEvent event.sourceless handler.sourceless
  | .removeEvent event handler => .removeEvent event.sourceless handler.sourceless
  | .branch condition whenTrue whenFalse =>
    .branch condition.sourceless whenTrue.sourceless whenFalse.sourceless
  | .expression expression => .expression expression.sourceless
  | .labeled label statement => .labeled label (labeledSourceless statement)
  | .loop init test increment body =>
    .loop (stmtsSourceless init) (exprSourceless test) (stmtsSourceless increment) body.sourceless
  | .ret value => .ret (exprSourceless value)
  | .raise value => .raise (exprSourceless value)
  | .protect body catchers last =>
    .protect body.sourceless (catchersSourceless catchers) (lastSourceless last)
  | .declaration name type init => .declaration name type (exprSourceless init)
  | .block block => .block block.sourceless
  | .goto label => .goto label
  | .snippet => .snippet

def labeledSourceless : Option Stmt → Option Stmt
  | none => none
  | some statement => some statement.sourceless

def stmtsSourceless : List Stmt → List Stmt
  | [] => []
  | s :: ss => s.sourceless :: stmtsSourceless ss

def catchersSourceless : List Catcher → List Catcher
  | [] => []
  | ⟨type, name, block⟩ :: cs => ⟨type, name, block.sourceless⟩ :: catchersSourceless cs

def lastSourceless : Option Block → Option Block
  | none => none
  | some block => some block.sourceless

def Block.sourceless : Block → Block
  | ⟨statements, _⟩ => ⟨stmtsSourceless statements, none⟩

end

attribute [simp] Expr.sourceless ExprForm.sourceless exprSourceless exprsSourceless Stmt.sourceless
  StmtForm.sourceless labeledSourceless stmtsSourceless catchersSourceless lastSourceless
  Block.sourceless

theorem exprSourceless_eq_map (e : Option Expr) : exprSourceless e = e.map Expr.sourceless := by
  cases e <;> rfl

theorem exprsSourceless_eq_map (es : List Expr) : exprsSourceless es = es.map Expr.sourceless := by
  induction es with
  | nil => rfl
  | cons e es ih => rw [exprsSourceless, ih, List.map_cons]

theorem labeledSourceless_eq_map (s : Option Stmt) :
    labeledSourceless s = s.map Stmt.sourceless := by
  cases s <;> rfl

theorem Expr.type_sourceless (e : Expr) : e.sourceless.type = e.type := by
  cases e
  rfl

/-! ## Texts -/

mutual

theorem Expr.text_sourceless : (e : Expr) → e.sourceless.text = e.text
  | ⟨form, type, source⟩ => by
      rw [Expr.sourceless, Expr.text, Expr.text, ExprForm.text_sourceless source form]

theorem ExprForm.text_sourceless (source : Option SourceContext) : (form : ExprForm) →
    form.sourceless.text (form.ownSource source) = form.text source
  | .member receiver ref => by
      simp only [ExprForm.sourceless, ExprForm.text, receiverText_sourceless receiver]
  | .call callee arguments => by
      simp only [ExprForm.sourceless, ExprForm.text, Expr.text_sourceless callee,
        exprsText_sourceless arguments]
  | .qualified qualifier name => by
      simp only [ExprForm.sourceless, ExprForm.text, Expr.text_sourceless qualifier]
  | .binary op left right => by
      simp only [ExprForm.sourceless, ExprForm.text, Expr.text_sourceless left,
        Expr.text_sourceless right]
  | .assignment statement => by
      simp only [ExprForm.sourceless, ExprForm.text, Stmt.text_sourceless statement]
  | .cast operand target => by
      simp only [ExprForm.sourceless, ExprForm.text, Expr.text_sourceless operand]
  | .indexer object operands => by
      simp only [ExprForm.sourceless, ExprForm.text, Expr.text_sourceless object,
        exprsText_sourceless operands]
  | .constructArray element size initializers => by
      simp only [ExprForm.sourceless, ExprForm.text, Expr.text_sourceless size,
        exprsText_sourceless initializers]
  | .construct type operands => by
      simp only [ExprForm.sourceless, ExprForm.text, exprsText_sourceless operands]
  | .constructDelegate type target method => by
      simp only [ExprForm.sourceless, ExprForm.text, Expr.text_sourceless target]
  | .addressOf operand => by
      simp only [ExprForm.sourceless, ExprForm.text, Expr.text_sourceless operand]
  | .block block => by
      simp only [ExprForm.sourceless, ExprForm.text, Block.text_sourceless block]
  | .literal _ | .identifier _ | .thisRef | .baseRef | .setterValue | .typeExpr _ | .typeOf _
  | .snippet | .temporary _ | .missing => by
      simp only [ExprForm.sourceless, ExprForm.text, ExprForm.ownSource]

theorem receiverText_sourceless : (receiver : Option Expr) →
    receiverText (exprSourceless receiver) = receiverText receiver
  | none => rfl
  | some receiver => by
      simp only [exprSourceless, receiverText, Expr.text_sourceless receiver]

theorem exprsText_sourceless : (es : List Expr) → exprsText (exprsSourceless es) = exprsText es
  | [] => rfl
  | [e] => by simp only [exprsSourceless, exprsText, Expr.text_sourceless e]
  | e :: e' :: es => by
      have hrest := exprsText_sourceless (e' :: es)
      simp only [exprsSourceless] at hrest
      simp only [exprsSourceless, exprsText, Expr.text_sourceless e, hrest]

theorem Stmt.text_sourceless : (s : Stmt) → s.sourceless.text = s.text
  | ⟨form, source⟩ => by
      rw [Stmt.sourceless, Stmt.text, Stmt.text, StmtForm.text_sourceless source form]

theorem StmtForm.text_sourceless (source : Option SourceContext) : (form : StmtForm) →
    form.sourceless.text (form.ownSource source) = form.text source
  | .assignment target value => by
      simp only [StmtForm.sourceless, StmtForm.text, Expr.text_sourceless target,
        Expr.text_sourceless value]
  | .attachEvent event handler => by
      simp only [StmtForm.sourceless, StmtForm.text, Expr.text_sourceless event,
        Expr.text_sourceless handler]
  | .removeEvent event handler => by
      simp only [StmtForm.sourceless, StmtForm.text, Expr.text_sourceless event,
        Expr.text_sourceless handler]
  | .branch condition whenTrue whenFalse => by
      simp only [StmtForm.sourceless, StmtForm.text, Expr.text_sourceless condition,
        Block.text_sourceless whenTrue, Block.text_sourceless whenFalse]
  | .expression expression => by
      simp only [StmtForm.sourceless, StmtForm.text, Expr.text_sourceless expression]
  | .labeled label statement => by
      simp only [StmtForm.sourceless, StmtForm.text, labeledText_sourceless statement]
  | .loop init test increment body => by
      simp only [StmtForm.sourceless, StmtForm.text, stmtsText_sourceless init,
        testText_sourceless test, stmtsText_sourceless increment, Block.text_sourceless body]
  | .ret value => by
      simp only [StmtForm.sourceless, StmtForm.text, valueText_sourceless value]
  | .raise value => by
      simp only [StmtForm.sourceless, StmtForm.text, valueText_sourceless value]
  | .protect body catchers last => by
      simp only [StmtForm.sourceless, StmtForm.text, Block.text_sourceless body,
        catchersText_sourceless catchers, lastText_sourceless last]
  | .declaration name type init => by
      simp only [StmtForm.sourceless, StmtForm.text, initText_sourceless init]
  | .block block => by
      simp only [StmtForm.sourceless, StmtForm.text, Block.text_sourceless block]
  | .goto _ | .snippet => by simp only [StmtForm.sourceless, StmtForm.text, StmtForm.ownSource]

theorem labeledText_sourceless : (s : Option Stmt) →
    labeledText (labeledSourceless s) = labeledText s
  | none => rfl
  | some s => by simp only [labeledSourceless, labeledText, Stmt.text_sourceless s]

theorem testText_sourceless : (e : Option Expr) → testText (exprSourceless e) = testText e
  | none => rfl
  | some e => by simp only [exprSourceless, testText, Expr.text_sourceless e]

theorem valueText_sourceless : (e : Option Expr) → valueText (exprSourceless e) = valueText e
  | none => rfl
  | some e => by simp only [exprSourceless, valueText, Expr.text_sourceless e]

theorem initText_sourceless : (e : Option Expr) → initText (exprSourceless e) = initText e
  | none => rfl
  | some e => by simp only [exprSourceless, initText, Expr.text_sourceless e]

theorem stmtsText_sourceless : (ss : List Stmt) → stmtsText (stmtsSourceless ss) = stmtsText ss
  | [] => rfl
  | [s] => by simp only [stmtsSourceless, stmtsText, Stmt.text_sourceless s]
  | s :: s' :: ss => by
      have hrest := stmtsText_sourceless (s' :: ss)
      simp only [stmtsSourceless] at hrest
      simp only [stmtsSourceless, stmtsText, Stmt.text_sourceless s, hrest]

theorem catchersText_sourceless : (cs : List Catcher) →
    catchersText (catchersSourceless cs) = catchersText cs
  | [] => rfl
  | ⟨type, name, block⟩ :: cs => by
      simp only [catchersSourceless, catchersText, Block.text_sourceless block,
        catchersText_sourceless cs]

theorem lastText_sourceless : (block : Option Block) →
    lastText (lastSourceless block) = lastText block
  | none => rfl
  | some block => by simp only [lastSourceless, lastText, Block.text_sourceless block]

theorem Block.text_sourceless : (b : Block) → b.sourceless.text = b.text
  | ⟨statements, _⟩ => by
      simp only [Block.sourceless, Block.text, bodyText_sourceless statements]

theorem bodyText_sourceless : (ss : List Stmt) → bodyText (stmtsSourceless ss) = bodyText ss
  | [] => rfl
  | s :: ss => by
      simp only [stmtsSourceless, bodyText, Stmt.text_sourceless s, bodyText_sourceless ss]

end

end MiddleEnd
