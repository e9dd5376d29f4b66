/-
  Dead calls under conditional elimination. None is left outside types, and code without them stays
  as it is (`editBody_deletes`).
-/
import MiddleEnd.Proofs.Conditional.Deletion
import MiddleEnd.Proofs.Sample

namespace MiddleEnd.Conditional

variable {dead : Expr → Bool}

section

variable (dead)

/-- None of the expressions is a dead call. -/
def NoDeadCalls (es : List Expr) : Prop := ∀ e ∈ es, ¬IsDeadCall dead e

end

@[simp]
theorem noDeadCalls_nil : NoDeadCalls dead [] := by simp [NoDeadCalls]

@[simp]
theorem noDeadCalls_append {es fs : List Expr} :
    NoDeadCalls dead (es ++ fs) ↔ NoDeadCalls dead es ∧ NoDeadCalls dead fs :=
  List.forall_mem_append

@[simp]
theorem noDeadCalls_cons {e : Expr} {es : List Expr} :
    NoDeadCalls dead (e :: es) ↔ ¬IsDeadCall dead e ∧ NoDeadCalls dead es :=
  List.forall_mem_cons

/-- Only calls are dead calls. -/
@[simp]
theorem isDeadCall_mk {form : ExprForm} {type : Option TypeRef} {source : Option SourceContext} :
    IsDeadCall dead ⟨form, type, source⟩ ↔
      ∃ callee arguments, form = .call callee arguments ∧ dead callee = true := Iff.rfl

/-- The expressions in a part, outside types. -/
def Part.exprs : Part → List Expr
  | .expr e => e.exprs false
  | .stmt s => s.exprs false

theorem noDeadCalls_exprs {es : List Expr} :
    NoDeadCalls dead (exprsExprs false es) ↔ ∀ e ∈ es, NoDeadCalls dead (e.exprs false) := by
  induction es with
  | nil => simp
  | cons e es ih => rw [exprsExprs, noDeadCalls_append, ih, List.forall_mem_cons]

/-- The dead calls of required parts are among those of the whole. -/
theorem noDeadCalls_required {part : Part} (h : NoDeadCalls dead part.exprs) :
    ∀ child ∈ part.required, NoDeadCalls dead child.exprs := by
  rcases part with ⟨form, type, source⟩ | ⟨form, source⟩
  · cases form with
    | member receiver _ => cases receiver <;> simp_all [Part.required, Part.exprs]
    | _ => simp_all [Part.required, Part.exprs, noDeadCalls_exprs]
  · cases form <;> simp_all [Part.required, Part.exprs]

/-- Code without dead calls is not deleted. -/
theorem not_deleted {part : Part} (h : NoDeadCalls dead part.exprs) : ¬Deleted dead part := by
  intro hd
  induction hd with
  | @call e hcall =>
    obtain ⟨form, type, source⟩ := e
    exact (noDeadCalls_cons.mp h).1 hcall
  | required hc _ ih => exact ih (noDeadCalls_required h _ hc)

theorem not_deleted_expr {e : Expr} (h : NoDeadCalls dead (e.exprs false)) :
    ¬Deleted dead (.expr e) := not_deleted h

theorem not_deleted_stmt {s : Stmt} (h : NoDeadCalls dead (s.exprs false)) :
    ¬Deleted dead (.stmt s) := not_deleted h

/-! ## Code without dead calls stays as it is -/

section

variable (dead)

mutual

theorem pruneExpr_eq : (e : Expr) → NoDeadCalls dead (e.exprs false) → pruneExpr dead e = e
  | ⟨form, type, _⟩ => fun h => by
    rw [Expr.exprs, typeExprs_false, List.append_nil, noDeadCalls_cons] at h
    rw [pruneExpr, pruneForm_eq form h.2]
termination_by structural x => x

theorem pruneForm_eq : (form : ExprForm) → NoDeadCalls dead (form.exprs false) →
    pruneForm dead form = form
  | .qualified qualifier _ => fun h => by rw [pruneForm, pruneExpr_eq qualifier h]
  | .binary _ left right => fun h => by
    obtain ⟨hl, hr⟩ := noDeadCalls_append.mp h
    rw [pruneForm, pruneExpr_eq left hl, pruneExpr_eq right hr]
  | .assignment statement => fun h => by rw [pruneForm, pruneStmt_eq statement h]
  | .cast operand _ => fun h => by
    rw [pruneForm, pruneExpr_eq operand (noDeadCalls_append.mp h).1]
  | .indexer object operands => fun h => by
    obtain ⟨ho, hs⟩ := noDeadCalls_append.mp h
    rw [pruneForm, pruneExpr_eq object ho, pruneExprs_eq operands hs]
  | .constructArray _ size initializers => fun h => by
    obtain ⟨hs, hi⟩ := noDeadCalls_append.mp h
    rw [pruneForm, pruneExpr_eq size (noDeadCalls_append.mp hs).2, pruneExprs_eq initializers hi]
  | .construct _ operands => fun h => by
    rw [pruneForm, pruneExprs_eq operands (noDeadCalls_append.mp h).2]
  | .constructDelegate _ target _ => fun h => by
    rw [pruneForm, pruneExpr_eq target (noDeadCalls_append.mp h).2]
  | .call callee arguments => fun h => by
    obtain ⟨hc, ha⟩ := noDeadCalls_append.mp h
    rw [pruneForm, pruneExpr_eq callee hc, pruneExprs_eq arguments ha]
  | .member receiver _ => fun h => by rw [pruneForm, pruneReceiver_eq receiver h]
  | .addressOf operand => fun h => by rw [pruneForm, pruneExpr_eq operand h]
  | .block block => fun h => by rw [pruneForm, pruneBlock_eq block h]
  | .literal _ | .identifier _ | .thisRef | .baseRef | .setterValue | .typeExpr _ | .typeOf _
  | .snippet | .temporary _ | .missing => fun _ => rfl
termination_by structural x => x

theorem pruneReceiver_eq : (receiver : Option Expr) →
    NoDeadCalls dead (optionExprs false receiver) → pruneReceiver dead receiver = receiver
  | none => fun _ => rfl
  | some receiver => fun h => by rw [pruneReceiver, pruneExpr_eq receiver h]
termination_by structural x => x

theorem pruneExprs_eq : (es : List Expr) → NoDeadCalls dead (exprsExprs false es) →
    pruneExprs dead es = es
  | [] => fun _ => rfl
  | e :: es => fun h => by
    obtain ⟨he, hs⟩ := noDeadCalls_append.mp h
    rw [pruneExprs, pruneExpr_eq e he, pruneExprs_eq es hs]
termination_by structural x => x

theorem pruneOption_eq : (e : Option Expr) → NoDeadCalls dead (optionExprs false e) →
    pruneOption dead e = e
  | none => fun _ => rfl
  | some e => fun h => by rw [pruneOption, if_neg (not_deleted_expr h), pruneExpr_eq e h]
termination_by structural x => x

theorem pruneStmt_eq : (s : Stmt) → NoDeadCalls dead (s.exprs false) → pruneStmt dead s = s
  | ⟨form, _⟩ => fun h => by rw [pruneStmt, pruneStmtForm_eq form h]
termination_by structural x => x

theorem pruneStmtForm_eq : (form : StmtForm) → NoDeadCalls dead (form.exprs false) →
    pruneStmtForm dead form = form
  | .assignment target value => fun h => by
    obtain ⟨ht, hv⟩ := noDeadCalls_append.mp h
    rw [pruneStmtForm, pruneExpr_eq target ht, pruneExpr_eq value hv]
  | .attachEvent event handler | .removeEvent event handler => fun h => by
    obtain ⟨he, hh⟩ := noDeadCalls_append.mp h
    rw [pruneStmtForm, pruneExpr_eq event he, pruneExpr_eq handler hh]
  | .branch condition whenTrue whenFalse => fun h => by
    obtain ⟨h, hf⟩ := noDeadCalls_append.mp h
    obtain ⟨hc, ht⟩ := noDeadCalls_append.mp h
    rw [pruneStmtForm, pruneExpr_eq condition hc, pruneBlock_eq whenTrue ht,
      pruneBlock_eq whenFalse hf]
  | .expression expression => fun h => by rw [pruneStmtForm, pruneExpr_eq expression h]
  | .labeled _ statement => fun h => by rw [pruneStmtForm, pruneLabeled_eq statement h]
  | .loop init test increment body => fun h => by
    obtain ⟨h, hb⟩ := noDeadCalls_append.mp h
    obtain ⟨h, hincrement⟩ := noDeadCalls_append.mp h
    obtain ⟨hinit, ht⟩ := noDeadCalls_append.mp h
    rw [pruneStmtForm, pruneStmts_eq init hinit, pruneOption_eq test ht,
      pruneStmts_eq increment hincrement, pruneBlock_eq body hb]
  | .ret value | .raise value => fun h => by rw [pruneStmtForm, pruneOption_eq value h]
  | .protect body catchers last => fun h => by
    obtain ⟨h, hl⟩ := noDeadCalls_append.mp h
    obtain ⟨hb, hc⟩ := noDeadCalls_append.mp h
    rw [pruneStmtForm, pruneBlock_eq body hb, pruneCatchers_eq catchers hc, pruneLast_eq last hl]
  | .declaration _ _ init => fun h => by
    rw [pruneStmtForm, pruneOption_eq init (noDeadCalls_append.mp h).2]
  | .block block => fun h => by rw [pruneStmtForm, pruneBlock_eq block h]
  | .goto _ | .snippet => fun _ => rfl
termination_by structural x => x

theorem pruneLabeled_eq : (s : Option Stmt) → NoDeadCalls dead (labeledExprs false s) →
    pruneLabeled dead s = s
  | none => fun _ => rfl
  | some s => fun h => by rw [pruneLabeled, if_neg (not_deleted_stmt h), pruneStmt_eq s h]
termination_by structural x => x

theorem pruneStmts_eq : (ss : List Stmt) → NoDeadCalls dead (stmtsExprs false ss) →
    pruneStmts dead ss = ss
  | [] => fun _ => rfl
  | s :: ss => fun h => by
    obtain ⟨hs, hrest⟩ := noDeadCalls_append.mp h
    rw [pruneStmts, if_neg (not_deleted_stmt hs), pruneStmt_eq s hs, pruneStmts_eq ss hrest]
termination_by structural x => x

theorem pruneCatchers_eq : (cs : List Catcher) → NoDeadCalls dead (catchersExprs false cs) →
    pruneCatchers dead cs = cs
  | [] => fun _ => rfl
  | ⟨_, _, block⟩ :: cs => fun h => by
    obtain ⟨hb, hcs⟩ := noDeadCalls_append.mp h
    rw [pruneCatchers, pruneBlock_eq block (noDeadCalls_append.mp hb).2, pruneCatchers_eq cs hcs]
termination_by structural x => x

theorem pruneLast_eq : (b : Option Block) → NoDeadCalls dead (lastExprs false b) →
    pruneLast dead b = b
  | none => fun _ => rfl
  | some block => fun h => by rw [pruneLast, pruneBlock_eq block h]
termination_by structural x => x

theorem pruneBlock_eq : (b : Block) → NoDeadCalls dead (b.exprs false) → pruneBlock dead b = b
  | ⟨statements, _⟩ => fun h => by rw [pruneBlock, pruneStmts_eq statements h]
termination_by structural x => x

end

end

/-! ## Pruned code has no dead calls -/

section

variable (u : Universe) (symbols : Option SymbolSet)

theorem symbolOf_eq_some {callee : Expr} {symbol : String} :
    symbolOf u callee = .ok (some symbol) ↔
      ∃ receiver ref method, callee.form = .member receiver ref ∧ u.method ref = .ok method ∧
        method.conditionalSymbol = some symbol := by
  constructor
  · intro h
    unfold symbolOf at h
    split at h
    · rename_i receiver ref hform
      rcases hmember : u.member ref with e | member
      · simp [hmember, bind, Except.bind] at h
      · rcases hmethod : member.method? with _ | method <;>
          simp [hmember, hmethod, bind, Except.bind, pure, Except.pure] at h
        have hm := Universe.method_eq_ok.mpr ⟨member, hmember, hmethod⟩
        exact ⟨receiver, ref, method, hform, hm, h⟩
    · cases h
  · rintro ⟨receiver, ref, method, hform, hm, hsymbol⟩
    obtain ⟨member, hmember, hmethod⟩ := Universe.method_eq_ok.mp hm
    simp [symbolOf, hform, hmember, hmethod, hsymbol, bind, Except.bind, pure, Except.pure]

/-- Where there is no table, no symbol is defined. -/
theorem isDefined_eq_false {symbol : String} :
    isDefined symbols symbol = false ↔
      ∀ table, symbols = some table → table.contains symbol = false := by
  cases symbols <;> simp [isDefined]

/-- A call is dead if it is bound to a method with a symbol that the table lacks. -/
theorem isDead_iff (callee : Expr) :
    isDead u symbols callee = true ↔
      ∃ receiver ref method symbol, callee.form = .member receiver ref ∧
        u.method ref = .ok method ∧ method.conditionalSymbol = some symbol ∧
        ∀ table, symbols = some table → table.contains symbol = false := by
  have hsymbol : isDead u symbols callee = true ↔
      ∃ symbol, symbolOf u callee = .ok (some symbol) ∧ isDefined symbols symbol = false := by
    unfold isDead
    split <;> simp_all
  simp only [hsymbol, symbolOf_eq_some, isDefined_eq_false]
  constructor
  · rintro ⟨symbol, ⟨receiver, ref, method, hform, hm, hs⟩, hlacks⟩
    exact ⟨receiver, ref, method, symbol, hform, hm, hs, hlacks⟩
  · rintro ⟨receiver, ref, method, symbol, hform, hm, hs, hlacks⟩
    exact ⟨symbol, ⟨receiver, ref, method, hform, hm, hs⟩, hlacks⟩

/-- A pruned callee still names its member. -/
theorem isDead_pruneExpr (callee : Expr) :
    isDead u symbols (pruneExpr (isDead u symbols) callee) = isDead u symbols callee := by
  obtain ⟨form, type, source⟩ := callee
  cases form <;> rfl

theorem isDeadCall_pruneExpr {e : Expr} :
    IsDeadCall (isDead u symbols) (pruneExpr (isDead u symbols) e) ↔
      IsDeadCall (isDead u symbols) e := by
  obtain ⟨form, type, source⟩ := e
  cases form <;> simp [pruneExpr, pruneForm, isDead_pruneExpr]

mutual

theorem pruneExpr_clean : (e : Expr) → ¬Deleted (isDead u symbols) (.expr e) →
    NoDeadCalls (isDead u symbols) ((pruneExpr (isDead u symbols) e).exprs false)
  | ⟨form, type, source⟩ => fun h => by
    -- a call that stays was not dead, and it still calls the same member
    have hself := mt (isDeadCall_pruneExpr u symbols).mp fun hd => h (.call hd)
    rw [pruneExpr] at hself ⊢
    rw [Expr.exprs, typeExprs_false, List.append_nil]
    exact noDeadCalls_cons.mpr
      ⟨hself, pruneForm_clean form fun _ hc hd => h (.required hc hd)⟩
termination_by structural x => x

theorem pruneForm_clean : (form : ExprForm) →
    (∀ child ∈ requiredByExpr form, ¬Deleted (isDead u symbols) child) →
      NoDeadCalls (isDead u symbols) ((pruneForm (isDead u symbols) form).exprs false)
  | .qualified qualifier _ => fun h => pruneExpr_clean qualifier (h _ (by simp))
  | .binary _ left right => fun h => noDeadCalls_append.mpr
    ⟨pruneExpr_clean left (h _ (by simp)), pruneExpr_clean right (h _ (by simp))⟩
  | .assignment statement => fun h => pruneStmt_clean statement (h _ (by simp))
  | .cast operand target => fun h => by
    simpa [pruneForm] using pruneExpr_clean operand (h _ (by simp))
  | .indexer object operands => fun h => noDeadCalls_append.mpr
    ⟨pruneExpr_clean object (h _ (by simp)),
      pruneExprs_clean operands fun e he => h _ (by simp [he])⟩
  | .constructArray _ size initializers => fun h => by
    simpa [pruneForm] using And.intro (pruneExpr_clean size (h _ (by simp)))
      (pruneExprs_clean initializers fun e he => h _ (by simp [he]))
  | .construct _ operands => fun h => by
    simpa [pruneForm] using pruneExprs_clean operands fun e he => h _ (by simp [he])
  | .constructDelegate _ target _ => fun h => by
    simpa [pruneForm] using pruneExpr_clean target (h _ (by simp))
  | .call callee arguments => fun h => noDeadCalls_append.mpr
    ⟨pruneExpr_clean callee (h _ (by simp)),
      pruneExprs_clean arguments fun e he => h _ (by simp [he])⟩
  | .member receiver _ => fun h => pruneReceiver_clean receiver fun e he => h _ (by simp [he])
  | .addressOf operand => fun h => pruneExpr_clean operand (h _ (by simp))
  | .block block => fun _ => pruneBlock_clean block
  | .literal _ | .identifier _ | .thisRef | .baseRef | .setterValue | .typeExpr _ | .typeOf _
  | .snippet | .temporary _ | .missing => fun _ => by simp [pruneForm]
termination_by structural x => x

theorem pruneReceiver_clean : (receiver : Option Expr) →
    (∀ e, receiver = some e → ¬Deleted (isDead u symbols) (.expr e)) →
      NoDeadCalls (isDead u symbols) (optionExprs false (pruneReceiver (isDead u symbols) receiver))
  | none => fun _ => noDeadCalls_nil
  | some receiver => fun h => pruneExpr_clean receiver (h receiver rfl)
termination_by structural x => x

theorem pruneExprs_clean : (es : List Expr) → (∀ e ∈ es, ¬Deleted (isDead u symbols) (.expr e)) →
    NoDeadCalls (isDead u symbols) (exprsExprs false (pruneExprs (isDead u symbols) es))
  | [] => fun _ => noDeadCalls_nil
  | e :: es => fun h => noDeadCalls_append.mpr
    ⟨pruneExpr_clean e (h e (by simp)), pruneExprs_clean es fun e' he => h e' (by simp [he])⟩
termination_by structural x => x

theorem pruneOption_clean : (e : Option Expr) →
    NoDeadCalls (isDead u symbols) (optionExprs false (pruneOption (isDead u symbols) e))
  | none => noDeadCalls_nil
  | some e => by
    rw [pruneOption]
    split
    · exact noDeadCalls_nil
    · exact pruneExpr_clean e ‹_›
termination_by structural x => x

theorem pruneStmt_clean : (s : Stmt) → ¬Deleted (isDead u symbols) (.stmt s) →
    NoDeadCalls (isDead u symbols) ((pruneStmt (isDead u symbols) s).exprs false)
  | ⟨form, _⟩ => fun h => pruneStmtForm_clean form fun _ hc hd => h (.required hc hd)
termination_by structural x => x

theorem pruneStmtForm_clean : (form : StmtForm) →
    (∀ child ∈ requiredByStmt form, ¬Deleted (isDead u symbols) child) →
      NoDeadCalls (isDead u symbols) ((pruneStmtForm (isDead u symbols) form).exprs false)
  | .assignment target value => fun h => noDeadCalls_append.mpr
    ⟨pruneExpr_clean target (h _ (by simp)), pruneExpr_clean value (h _ (by simp))⟩
  | .attachEvent event handler | .removeEvent event handler => fun h => noDeadCalls_append.mpr
    ⟨pruneExpr_clean event (h _ (by simp)), pruneExpr_clean handler (h _ (by simp))⟩
  | .branch condition whenTrue whenFalse => fun h => noDeadCalls_append.mpr
    ⟨noDeadCalls_append.mpr ⟨pruneExpr_clean condition (h _ (by simp)), pruneBlock_clean whenTrue⟩,
      pruneBlock_clean whenFalse⟩
  | .expression expression => fun h => pruneExpr_clean expression (h _ (by simp))
  | .labeled _ statement => fun _ => pruneLabeled_clean statement
  | .loop init test increment body => fun _ => noDeadCalls_append.mpr
    ⟨noDeadCalls_append.mpr ⟨noDeadCalls_append.mpr ⟨pruneStmts_clean init, pruneOption_clean test⟩,
      pruneStmts_clean increment⟩, pruneBlock_clean body⟩
  | .ret value | .raise value => fun _ => pruneOption_clean value
  | .protect body catchers last => fun _ => noDeadCalls_append.mpr
    ⟨noDeadCalls_append.mpr ⟨pruneBlock_clean body, pruneCatchers_clean catchers⟩,
      pruneLast_clean last⟩
  | .declaration _ _ init => fun _ => by simpa [pruneStmtForm] using pruneOption_clean init
  | .block block => fun _ => pruneBlock_clean block
  | .goto _ | .snippet => fun _ => noDeadCalls_nil
termination_by structural x => x

theorem pruneLabeled_clean : (s : Option Stmt) →
    NoDeadCalls (isDead u symbols) (labeledExprs false (pruneLabeled (isDead u symbols) s))
  | none => noDeadCalls_nil
  | some s => by
    rw [pruneLabeled]
    split
    · exact noDeadCalls_nil
    · exact pruneStmt_clean s ‹_›
termination_by structural x => x

theorem pruneStmts_clean : (ss : List Stmt) →
    NoDeadCalls (isDead u symbols) (stmtsExprs false (pruneStmts (isDead u symbols) ss))
  | [] => noDeadCalls_nil
  | s :: ss => by
    rw [pruneStmts]
    split
    · exact pruneStmts_clean ss
    · exact noDeadCalls_append.mpr ⟨pruneStmt_clean s ‹_›, pruneStmts_clean ss⟩
termination_by structural x => x

theorem pruneCatchers_clean : (cs : List Catcher) →
    NoDeadCalls (isDead u symbols) (catchersExprs false (pruneCatchers (isDead u symbols) cs))
  | [] => noDeadCalls_nil
  | ⟨_, _, block⟩ :: cs => by
    simpa [pruneCatchers] using And.intro (pruneBlock_clean block) (pruneCatchers_clean cs)
termination_by structural x => x

theorem pruneLast_clean : (b : Option Block) →
    NoDeadCalls (isDead u symbols) (lastExprs false (pruneLast (isDead u symbols) b))
  | none => noDeadCalls_nil
  | some block => pruneBlock_clean block
termination_by structural x => x

theorem pruneBlock_clean : (b : Block) →
    NoDeadCalls (isDead u symbols) ((pruneBlock (isDead u symbols) b).exprs false)
  | ⟨statements, _⟩ => pruneStmts_clean statements
termination_by structural x => x

end

end

/-! ## Bodies -/

/-- Elimination deletes what needs the value of a dead call, and nothing else. A call is dead if it
    is bound to a method with a symbol that the table lacks. An expression or a statement goes
    exactly if it is `Deleted`, and otherwise it stays as it was but for the deleted code in its
    lists of statements and in its places that may be empty. Hence no dead call is left, and a body
    without dead calls stays as it is. -/
theorem editBody_deletes (u : Universe) (method : MemberRef) (body : Body) (state : State) :
    (∀ callee, isDead u state.symbols callee = true ↔
      ∃ receiver ref target symbol, callee.form = .member receiver ref ∧
        u.method ref = .ok target ∧ target.conditionalSymbol = some symbol ∧
        ∀ table, state.symbols = some table → table.contains symbol = false) ∧
    (∀ e s, ((editor u state.symbols).editExpr e s).1 =
      if Deleted (isDead u state.symbols) (.expr e) then none
      else some (pruneExpr (isDead u state.symbols) e)) ∧
    (∀ st s, ((editor u state.symbols).editStmt st s).1 =
      if Deleted (isDead u state.symbols) (.stmt st) then none
      else some (pruneStmt (isDead u state.symbols) st)) ∧
    (editBody u method body state).body =
      { body with block := pruneBlock (isDead u state.symbols) body.block } ∧
    NoDeadCalls (isDead u state.symbols) ((editBody u method body state).body.block.exprs false) ∧
    (NoDeadCalls (isDead u state.symbols) (body.block.exprs false) →
      (editBody u method body state).body = body) := by
  have hblock := (editBody_block u method body state).trans (keepBlock_eq _ body.block)
  have hbody : (editBody u method body state).body =
      { body with block := pruneBlock (isDead u state.symbols) body.block } :=
    congrArg (fun block => { body with block }) hblock
  refine ⟨isDead_iff u state.symbols, fun e s => ?_, fun st s => ?_, hbody, ?_, fun h => ?_⟩
  · exact (editExpr_leaves u state.symbols e s).1.trans (keepExpr_fate _ e).eq_ite
  · exact (editStmt_leaves u state.symbols st s).1.trans (keepStmt_fate _ st).eq_ite
  · rw [hblock]
    exact pruneBlock_clean u state.symbols body.block
  · rw [hbody, pruneBlock_eq _ body.block h]

/-- An assignment goes with the call in its target. -/
example : (pruneBlock (isDead Wallet.types none) Wallet.copyCoins.block).statements = [] := by rfl

end MiddleEnd.Conditional
