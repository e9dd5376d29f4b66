/-
  What conditional elimination leaves of code. Whether a node goes is decided by the code alone, so
  the result of an elimination is that of plain functions with an optional result, and the state of
  the run only counts (`editBody_block`). A run over code whose members are all known never fails
  (`editBody_failure`).
-/
import MiddleEnd.Pass.Conditional
import MiddleEnd.Proofs.Code.Editing
import MiddleEnd.Proofs.Code.Occurrence
import MiddleEnd.Proofs.Universe.Lookup

namespace MiddleEnd.Conditional

/-- A call of `callee` goes. -/
def isDead (u : Universe) (symbols : Option SymbolSet) (callee : Expr) : Bool :=
  match symbolOf u callee with
  | .ok (some symbol) => !isDefined symbols symbol
  | _ => false

section

variable (dead : Expr → Bool)

mutual

def keepExpr : Expr → Option Expr
  | ⟨form, type, source⟩ => keepForm type source form

def keepForm (type : Option TypeRef) (source : Option SourceContext) : ExprForm → Option Expr
  | .literal l => some ⟨.literal l, type, source⟩
  | .identifier name => some ⟨.identifier name, type, source⟩
  | .qualified qualifier name => do return ⟨.qualified (← keepExpr qualifier) name, type, source⟩
  | .thisRef => some ⟨.thisRef, type, source⟩
  | .baseRef => some ⟨.baseRef, type, source⟩
  | .setterValue => some ⟨.setterValue, type, source⟩
  | .binary op left right => do
    return ⟨.binary op (← keepExpr left) (← keepExpr right), type, source⟩
  | .assignment statement => do return ⟨.assignment (← keepStmt statement), type, source⟩
  | .cast operand target => do return ⟨.cast (← keepExpr operand) target, type, source⟩
  | .indexer object operands => do
    return ⟨.indexer (← keepExpr object) (← keepExprs operands), type, source⟩
  | .constructArray element size initializers => do
    return ⟨.constructArray element (← keepExpr size) (← keepExprs initializers), type, source⟩
  | .construct constructed operands => do
    return ⟨.construct constructed (← keepExprs operands), type, source⟩
  | .constructDelegate delegate target method => do
    return ⟨.constructDelegate delegate (← keepExpr target) method, type, source⟩
  | .call callee arguments =>
    if dead callee then none
    else do return ⟨.call (← keepExpr callee) (← keepExprs arguments), type, source⟩
  | .member receiver ref => do return ⟨.member (← keepReceiver receiver) ref, type, source⟩
  | .typeExpr t => some ⟨.typeExpr t, type, source⟩
  | .typeOf t => some ⟨.typeOf t, type, source⟩
  | .addressOf operand => do return ⟨.addressOf (← keepExpr operand), type, source⟩
  | .snippet => some ⟨.snippet, type, source⟩
  | .block block => some ⟨.block (keepBlock block), type, source⟩
  | .temporary id => some ⟨.temporary id, type, source⟩
  | .missing => some ⟨.missing, type, source⟩

def keepReceiver : Option Expr → Option (Option Expr)
  | none => some none
  | some receiver => do return some (← keepExpr receiver)

def keepExprs : List Expr → Option (List Expr)
  | [] => some []
  | e :: es => do return (← keepExpr e) :: (← keepExprs es)

/-- An optional expression that goes leaves its place empty. -/
def keepOption : Option Expr → Option Expr
  | none => none
  | some e => keepExpr e

def keepStmt : Stmt → Option Stmt
  | ⟨form, source⟩ => keepStmtForm source form

def keepStmtForm (source : Option SourceContext) : StmtForm → Option Stmt
  | .assignment target value => do
    return ⟨.assignment (← keepExpr target) (← keepExpr value), source⟩
  | .attachEvent event handler => do
    return ⟨.attachEvent (← keepExpr event) (← keepExpr handler), source⟩
  | .removeEvent event handler => do
    return ⟨.removeEvent (← keepExpr event) (← keepExpr handler), source⟩
  | .branch condition whenTrue whenFalse => do
    return ⟨.branch (← keepExpr condition) (keepBlock whenTrue) (keepBlock whenFalse), source⟩
  | .expression expression => do return ⟨.expression (← keepExpr expression), source⟩
  | .goto label => some ⟨.goto label, source⟩
  | .labeled label statement => some ⟨.labeled label (keepLabeled statement), source⟩
  | .loop init test increment body =>
    some ⟨.loop (keepStmts init) (keepOption test) (keepStmts increment) (keepBlock body), source⟩
  | .ret value => some ⟨.ret (keepOption value), source⟩
  | .raise value => some ⟨.raise (keepOption value), source⟩
  | .protect body catchers last =>
    some ⟨.protect (keepBlock body) (keepCatchers catchers) (keepLast last), source⟩
  | .declaration name type init => some ⟨.declaration name type (keepOption init), source⟩
  | .snippet => some ⟨.snippet, source⟩
  | .block block => some ⟨.block (keepBlock block), source⟩

def keepLabeled : Option Stmt → Option Stmt
  | none => none
  | some s => keepStmt s

def keepStmts : List Stmt → List Stmt
  | [] => []
  | s :: ss => (keepStmt s).toList ++ keepStmts ss

def keepCatchers : List Catcher → List Catcher
  | [] => []
  | ⟨type, name, block⟩ :: cs => ⟨type, name, keepBlock block⟩ :: keepCatchers cs

def keepLast : Option Block → Option Block
  | none => none
  | some block => some (keepBlock block)

def keepBlock : Block → Block
  | ⟨statements, source⟩ => ⟨keepStmts statements, source⟩

end

end

attribute [simp] keepExpr keepForm keepReceiver keepExprs keepOption keepStmt keepStmtForm
  keepLabeled keepStmts keepCatchers keepLast keepBlock

/-! ## Runs -/

/-- Whatever the state, the action gives this result; it does not fail if `known` holds. -/
def Leaves {α : Type} (action : StateM Elimination α) (result : α) (known : Prop) : Prop :=
  ∀ s, (action s).1 = result ∧ (known → s.failure = none → (action s).2.failure = none)

namespace Leaves

variable {α β : Type} {p q : Prop}

theorem of {action : StateM Elimination α} {result : α} (h : Leaves action result p)
    (hp : q → p) : Leaves action result q :=
  fun s => ⟨(h s).1, fun hq => (h s).2 (hp hq)⟩

theorem pure (a : α) : Leaves (Pure.pure a) a True := fun _ => ⟨rfl, fun _ h => h⟩

theorem bind {action : StateM Elimination α} {next : α → StateM Elimination β} {a : α} {b : β}
    (h : Leaves action a p) (hn : Leaves (next a) b q) : Leaves (action >>= next) b (p ∧ q) := by
  intro s
  obtain ⟨ha, hs⟩ := h s
  show (next (action s).1 (action s).2).1 = b ∧ _
  rw [ha]
  refine ⟨(hn _).1, fun hpq hf => ?_⟩
  show (next (action s).1 (action s).2).2.failure = none
  rw [ha]
  exact (hn _).2 hpq.2 (hs hpq.1 hf)

theorem pureEdit (a : α) : Leaves (Pure.pure a : Edit Elimination α) (some a) True :=
  fun _ => ⟨rfl, fun _ h => h⟩

theorem always {action : StateM Elimination α} {a : α} (h : Leaves action a p) :
    Leaves (Edit.always action) (some a) p :=
  (h.bind (pure (some a))).of fun hp => ⟨hp, trivial⟩

/-- Deleting a required part deletes the whole. -/
theorem bindEdit {edit : Edit Elimination α} {next : α → Edit Elimination β} {a : Option α}
    {b : α → Option β} (h : Leaves edit a p) (hn : ∀ x, Leaves (next x) (b x) q) :
    Leaves (edit >>= next : Edit Elimination β) (a.bind b) (p ∧ q) := by
  intro s
  obtain ⟨ha, hs⟩ := h s
  rcases hr : edit s with ⟨result, s'⟩
  rw [hr] at ha hs
  subst ha
  cases result with
  | none =>
      rw [Edit.bind_deleted hr]
      exact ⟨rfl, fun hpq => hs hpq.1⟩
  | some x =>
      rw [Edit.bind_run hr]
      exact ⟨(hn x s').1, fun hpq hf => (hn x s').2 hpq.2 (hs hpq.1 hf)⟩

end Leaves

section

variable {u : Universe} {symbols : Option SymbolSet}

theorem symbolOf_ok {callee : Expr}
    (h : ∀ receiver ref, callee.form = .member receiver ref → u.Has ref) :
    ∃ symbol, symbolOf u callee = .ok symbol := by
  unfold symbolOf
  split
  · rename_i receiver ref hm
    obtain ⟨member, hmember⟩ := h receiver ref hm
    rw [hmember]
    rcases hmethod : member.method? with _ | method
    · exact ⟨none, by simp [bind, Except.bind, hmethod, pure, Except.pure]⟩
    · exact ⟨method.conditionalSymbol, by simp [bind, Except.bind, hmethod, pure, Except.pure]⟩
  · exact ⟨none, rfl⟩

/-- A dead call goes before its parts are looked at. -/
theorem editCall_leaves {callee : Expr} {walk : Edit Elimination Expr} {result : Option Expr}
    {p : Prop} (h : Leaves walk result p)
    (hp : p → ∀ receiver ref, callee.form = .member receiver ref → u.Has ref) :
    Leaves (editCall u symbols callee walk) (if isDead u symbols callee then none else result)
      p := by
  intro s
  rcases hs : symbolOf u callee with e | _ | symbol
  · simp only [editCall, isDead, hs]
    refine ⟨(h _).1, fun hknown => ?_⟩
    obtain ⟨symbol, hok⟩ := symbolOf_ok (hp hknown)
    rw [hs] at hok
    cases hok
  · simp only [editCall, isDead, hs]
    exact h s
  · simp only [editCall, isDead, hs]
    rcases hd : isDefined symbols symbol
    · exact ⟨rfl, fun _ hf => hf⟩
    · exact h s

end

variable (u : Universe) (symbols : Option SymbolSet)

mutual

theorem editExpr_leaves : (e : Expr) →
    Leaves ((editor u symbols).editExpr e) (keepExpr (isDead u symbols) e)
      (NamesOnly u.Has (e.exprs true))
  | ⟨form, type, source⟩ => by
    rw [Editor.editExpr, keepExpr]
    exact (walkExpr_leaves type source form).of fun h => by simp_all

theorem walkExpr_leaves (type : Option TypeRef) (source : Option SourceContext) :
    (form : ExprForm) →
    Leaves ((editor u symbols).walkExpr type source form)
      (keepForm (isDead u symbols) type source form) (NamesOnly u.Has (form.exprs true))
  | .member receiver ref => by
    rw [Editor.walkExpr, keepForm]
    exact ((editReceiver_leaves receiver).bindEdit fun _ => .pureEdit _).of fun h => by simp_all
  | .call callee arguments => by
    rw [Editor.walkExpr, keepForm]
    refine editCall_leaves (((editExpr_leaves callee).bindEdit fun _ =>
      (editExprs_leaves arguments).bindEdit fun _ => .pureEdit _).of fun h => by simp_all) ?_
    obtain ⟨form, calleeType, calleeSource⟩ := callee
    intro h
    simp only [ExprForm.exprs, Expr.exprs, namesOnly_cons, namesOnly_append] at h
    exact h.1.1
  | .qualified qualifier name => by
    rw [Editor.walkExpr, keepForm]
    exact ((editExpr_leaves qualifier).bindEdit fun _ => .pureEdit _).of fun h => by simp_all
  | .binary op left right => by
    rw [Editor.walkExpr, keepForm]
    exact ((editExpr_leaves left).bindEdit fun _ => (editExpr_leaves right).bindEdit fun _ =>
      .pureEdit _).of fun h => by simp_all
  | .assignment statement => by
    rw [Editor.walkExpr, keepForm]
    exact ((editStmt_leaves statement).bindEdit fun _ => .pureEdit _).of fun h => by simp_all
  | .cast operand target => by
    rw [Editor.walkExpr, keepForm]
    exact ((editExpr_leaves operand).bindEdit fun _ => .pureEdit _).of fun h => by simp_all
  | .indexer object operands => by
    rw [Editor.walkExpr, keepForm]
    exact ((editExpr_leaves object).bindEdit fun _ => (editExprs_leaves operands).bindEdit fun _ =>
      .pureEdit _).of fun h => by simp_all
  | .constructArray element size initializers => by
    rw [Editor.walkExpr, keepForm]
    exact ((editExpr_leaves size).bindEdit fun _ =>
      (editExprs_leaves initializers).bindEdit fun _ => .pureEdit _).of fun h => by simp_all
  | .construct constructed operands => by
    rw [Editor.walkExpr, keepForm]
    exact ((editExprs_leaves operands).bindEdit fun _ => .pureEdit _).of fun h => by simp_all
  | .constructDelegate delegate target method => by
    rw [Editor.walkExpr, keepForm]
    exact ((editExpr_leaves target).bindEdit fun _ => .pureEdit _).of fun h => by simp_all
  | .addressOf operand => by
    rw [Editor.walkExpr, keepForm]
    exact ((editExpr_leaves operand).bindEdit fun _ => .pureEdit _).of fun h => by simp_all
  | .block block => by
    rw [Editor.walkExpr, keepForm]
    exact ((editBlock_leaves block).always.bindEdit fun _ => .pureEdit _).of fun h => by simp_all
  | .literal _ | .identifier _ | .thisRef | .baseRef | .setterValue | .typeExpr _ | .typeOf _
  | .snippet | .temporary _ | .missing => by
    rw [Editor.walkExpr, keepForm]
    exact (Leaves.pureEdit _).of fun _ => trivial

theorem editReceiver_leaves : (e : Option Expr) →
    Leaves ((editor u symbols).editReceiver e) (keepReceiver (isDead u symbols) e)
      (NamesOnly u.Has (optionExprs true e))
  | none => by
    rw [Editor.editReceiver, keepReceiver]
    exact (Leaves.pureEdit none).of fun _ => trivial
  | some e => by
    rw [Editor.editReceiver, keepReceiver]
    exact ((editExpr_leaves e).bindEdit fun _ => .pureEdit _).of fun h => by simp_all

theorem editExprs_leaves : (es : List Expr) →
    Leaves ((editor u symbols).editExprs es) (keepExprs (isDead u symbols) es)
      (NamesOnly u.Has (exprsExprs true es))
  | [] => by
    rw [Editor.editExprs, keepExprs]
    exact (Leaves.pureEdit []).of fun _ => trivial
  | e :: es => by
    rw [Editor.editExprs, keepExprs]
    exact ((editExpr_leaves e).bindEdit fun _ => (editExprs_leaves es).bindEdit fun _ =>
      .pureEdit _).of fun h => by simp_all

theorem editOption_leaves : (e : Option Expr) →
    Leaves ((editor u symbols).editOption e) (keepOption (isDead u symbols) e)
      (NamesOnly u.Has (optionExprs true e))
  | none => by
    rw [Editor.editOption, keepOption]
    exact (Leaves.pure none).of fun _ => trivial
  | some e => by
    rw [Editor.editOption, keepOption, optionExprs]
    exact editExpr_leaves e

theorem editStmt_leaves : (s : Stmt) →
    Leaves ((editor u symbols).editStmt s) (keepStmt (isDead u symbols) s)
      (NamesOnly u.Has (s.exprs true))
  | ⟨.assignment target value, source⟩ => by
    rw [keepStmt, keepStmtForm]
    have h := ((editExpr_leaves target).bindEdit fun t => (editExpr_leaves value).bindEdit fun v =>
      .pureEdit (⟨.assignment t v, source⟩ : Stmt)).of
        (q := NamesOnly u.Has (Stmt.exprs true ⟨.assignment target value, source⟩))
        fun h => by simp_all
    obtain ⟨form, type, targetSource⟩ := target
    cases form <;> exact h
  | ⟨.attachEvent event handler, source⟩ => by
    rw [Editor.editStmt, keepStmt, keepStmtForm]
    exact ((editExpr_leaves event).bindEdit fun _ => (editExpr_leaves handler).bindEdit fun _ =>
      .pureEdit _).of fun h => by simp_all
  | ⟨.removeEvent event handler, source⟩ => by
    rw [Editor.editStmt, keepStmt, keepStmtForm]
    exact ((editExpr_leaves event).bindEdit fun _ => (editExpr_leaves handler).bindEdit fun _ =>
      .pureEdit _).of fun h => by simp_all
  | ⟨.branch condition whenTrue whenFalse, source⟩ => by
    rw [Editor.editStmt, keepStmt, keepStmtForm]
    exact ((editExpr_leaves condition).bindEdit fun _ =>
      (editBlock_leaves whenTrue).always.bindEdit fun _ =>
      (editBlock_leaves whenFalse).always.bindEdit fun _ => .pureEdit _).of fun h => by simp_all
  | ⟨.expression expression, source⟩ => by
    rw [Editor.editStmt, keepStmt, keepStmtForm]
    exact ((editExpr_leaves expression).bindEdit fun _ => .pureEdit _).of fun h => by simp_all
  | ⟨.labeled label statement, source⟩ => by
    rw [Editor.editStmt, keepStmt, keepStmtForm]
    exact ((editLabeled_leaves statement).always.bindEdit fun _ => .pureEdit _).of
      fun h => by simp_all
  | ⟨.loop init test increment body, source⟩ => by
    rw [Editor.editStmt, keepStmt, keepStmtForm]
    exact ((editStmts_leaves init).always.bindEdit fun _ =>
      (editOption_leaves test).always.bindEdit fun _ =>
      (editStmts_leaves increment).always.bindEdit fun _ =>
      (editBlock_leaves body).always.bindEdit fun _ => .pureEdit _).of fun h => by simp_all
  | ⟨.ret value, source⟩ => by
    rw [Editor.editStmt, keepStmt, keepStmtForm]
    exact ((editOption_leaves value).always.bindEdit fun _ => .pureEdit _).of fun h => by simp_all
  | ⟨.raise value, source⟩ => by
    rw [Editor.editStmt, keepStmt, keepStmtForm]
    exact ((editOption_leaves value).always.bindEdit fun _ => .pureEdit _).of fun h => by simp_all
  | ⟨.protect body catchers last, source⟩ => by
    rw [Editor.editStmt, keepStmt, keepStmtForm]
    exact ((editBlock_leaves body).always.bindEdit fun _ =>
      (editCatchers_leaves catchers).always.bindEdit fun _ =>
      (editLast_leaves last).always.bindEdit fun _ => .pureEdit _).of fun h => by simp_all
  | ⟨.declaration name type init, source⟩ => by
    rw [Editor.editStmt, keepStmt, keepStmtForm]
    exact ((editOption_leaves init).always.bindEdit fun _ => .pureEdit _).of fun h => by simp_all
  | ⟨.block block, source⟩ => by
    rw [Editor.editStmt, keepStmt, keepStmtForm]
    exact ((editBlock_leaves block).always.bindEdit fun _ => .pureEdit _).of fun h => by simp_all
  | ⟨.goto _, _⟩ | ⟨.snippet, _⟩ => by
    rw [Editor.editStmt, keepStmt, keepStmtForm]
    exact (Leaves.pureEdit _).of fun _ => trivial

theorem editStmts_leaves : (ss : List Stmt) →
    Leaves ((editor u symbols).editStmts ss) (keepStmts (isDead u symbols) ss)
      (NamesOnly u.Has (stmtsExprs true ss))
  | [] => by
    rw [Editor.editStmts, keepStmts]
    exact (Leaves.pure []).of fun _ => trivial
  | s :: ss => by
    rw [Editor.editStmts, keepStmts]
    exact Leaves.of (.bind (editStmt_leaves s) (.bind (editStmts_leaves ss) (.pure _)))
      fun h => by simp_all

theorem editLabeled_leaves : (s : Option Stmt) →
    Leaves ((editor u symbols).editLabeled s) (keepLabeled (isDead u symbols) s)
      (NamesOnly u.Has (labeledExprs true s))
  | none => by
    rw [Editor.editLabeled, keepLabeled]
    exact (Leaves.pure none).of fun _ => trivial
  | some s => by
    rw [Editor.editLabeled, keepLabeled, labeledExprs]
    exact editStmt_leaves s

theorem editCatchers_leaves : (cs : List Catcher) →
    Leaves ((editor u symbols).editCatchers cs) (keepCatchers (isDead u symbols) cs)
      (NamesOnly u.Has (catchersExprs true cs))
  | [] => by
    rw [Editor.editCatchers, keepCatchers]
    exact (Leaves.pure []).of fun _ => trivial
  | ⟨type, name, block⟩ :: cs => by
    rw [Editor.editCatchers, keepCatchers]
    exact Leaves.of (.bind (editBlock_leaves block) (.bind (editCatchers_leaves cs) (.pure _)))
      fun h => by simp_all

theorem editLast_leaves : (b : Option Block) →
    Leaves ((editor u symbols).editLast b) (keepLast (isDead u symbols) b)
      (NamesOnly u.Has (lastExprs true b))
  | none => by
    rw [Editor.editLast, keepLast]
    exact (Leaves.pure none).of fun _ => trivial
  | some b => by
    rw [Editor.editLast, keepLast]
    exact Leaves.of (.bind (editBlock_leaves b) (.pure _)) fun h => by simp_all

theorem editBlock_leaves : (b : Block) →
    Leaves ((editor u symbols).editBlock b) (keepBlock (isDead u symbols) b)
      (NamesOnly u.Has (b.exprs true))
  | ⟨statements, source⟩ => by
    rw [Editor.editBlock, keepBlock]
    exact Leaves.of (.bind (editStmts_leaves statements) (.pure _)) fun h => by simp_all

end

/-- The block that an elimination leaves. -/
theorem editBody_block (method : MemberRef) (body : Body) (state : State) :
    (editBody u method body state).body.block = keepBlock (isDead u state.symbols) body.block :=
  (editBlock_leaves u state.symbols body.block {}).1

/-- Over code whose members are known, an elimination does not fail. -/
theorem editBody_failure (method : MemberRef) (body : Body) (state : State)
    (h : NamesOnly u.Has (body.block.exprs true)) :
    (editBody u method body state).failure = none :=
  (editBlock_leaves u state.symbols body.block {}).2 h rfl

end MiddleEnd.Conditional
