/-
  Elimination done twice. A walk that ends without a failure has met no call of an unknown member in
  what it leaves, and every call that it leaves still names the member it named. So a second walk
  over what is left finds nothing to do: it gives the same code, counts no call, tells nothing and
  does not fail (`editBody_again`). Calls in deleted code need not be known.
-/
import MiddleEnd.Pass.Conditional
import MiddleEnd.Proofs.Code.Editing

namespace MiddleEnd.Conditional

variable {α β : Type}

/-! ## Walks that find nothing -/

/-- From every state the action gives this result, and the state stays. -/
def Calm (action : StateM Elimination α) (a : α) : Prop := ∀ s, action s = (a, s)

namespace Calm

theorem pure (a : α) : Calm (Pure.pure a) a := fun _ => rfl

theorem bind {action : StateM Elimination α} {next : α → StateM Elimination β} {a : α} {b : β}
    (h : Calm action a) (hn : Calm (next a) b) : Calm (action >>= next) b := by
  intro s
  rw [StateM.bind_run, h s]
  exact hn s

theorem pureEdit (a : α) : Calm (Pure.pure a : Edit Elimination α) (some a) := fun _ => rfl

theorem always {action : StateM Elimination α} {a : α} (h : Calm action a) :
    Calm (Edit.always action) (some a) := h.bind (pure (some a))

theorem bindEdit {edit : Edit Elimination α} {next : α → Edit Elimination β} {a : α}
    {b : Option β} (h : Calm edit (some a)) (hn : Calm (next a) b) :
    Calm (edit >>= next : Edit Elimination β) b :=
  fun s => (Edit.bind_run (h s) next).trans (hn s)

end Calm

/-! ## Walks that do not fail -/

/-- If the action ends without a failure, there was none before, and `post` holds of the result. -/
def Ensures (action : StateM Elimination α) (post : α → Prop) : Prop :=
  ∀ s, (action s).2.failure = none → s.failure = none ∧ post (action s).1

namespace Ensures

theorem of {action : StateM Elimination α} {p q : α → Prop} (h : Ensures action p)
    (hq : ∀ a, p a → q a) : Ensures action q :=
  fun s hs => ⟨(h s hs).1, hq _ (h s hs).2⟩

theorem pure {a : α} {post : α → Prop} (h : post a) : Ensures (Pure.pure a) post :=
  fun _ hs => ⟨hs, h⟩

/-- Later failures show at the end, so what comes first need only be right if it has not failed. -/
theorem bind {action : StateM Elimination α} {next : α → StateM Elimination β} {p : α → Prop}
    {q : β → Prop} (h : Ensures action p) (hn : ∀ a, Ensures (next a) fun b => p a → q b) :
    Ensures (action >>= next) q := by
  intro s hs
  rw [StateM.bind_run] at hs ⊢
  obtain ⟨hmid, hq⟩ := hn _ _ hs
  obtain ⟨hbefore, hp⟩ := h s hmid
  exact ⟨hbefore, hq hp⟩

theorem pureEdit {a : α} {post : α → Prop} (h : post a) :
    Ensures (Pure.pure a : Edit Elimination α) fun o => ∀ a ∈ o, post a := by
  refine fun s hs => ⟨hs, ?_⟩
  rintro _ ⟨⟩
  exact h

theorem always {action : StateM Elimination α} {post : α → Prop} (h : Ensures action post) :
    Ensures (Edit.always action) fun o => ∀ a ∈ o, post a := by
  intro s hs
  obtain ⟨hbefore, hpost⟩ := h s hs
  refine ⟨hbefore, ?_⟩
  rintro _ ⟨⟩
  exact hpost

theorem bindEdit {edit : Edit Elimination α} {next : α → Edit Elimination β} {p : α → Prop}
    {q : β → Prop} (h : Ensures edit fun o => ∀ a ∈ o, p a)
    (hn : ∀ a, Ensures (next a) fun o => ∀ b ∈ o, p a → q b) :
    Ensures (edit >>= next : Edit Elimination β) fun o => ∀ b ∈ o, q b := by
  intro s hs
  rcases hrun : edit s with ⟨_ | a, s₁⟩
  · rw [Edit.bind_deleted hrun] at hs ⊢
    refine ⟨(h s (by rw [hrun]; exact hs)).1, ?_⟩
    rintro _ ⟨⟩
  · rw [Edit.bind_run hrun] at hs ⊢
    obtain ⟨hmid, hq⟩ := hn a s₁ hs
    obtain ⟨hbefore, hp⟩ := h s (by rw [hrun]; exact hmid)
    rw [hrun] at hp
    exact ⟨hbefore, fun b hb => hq b hb (hp a rfl)⟩

end Ensures

variable (u : Universe) (symbols : Option SymbolSet)

/-- What is left of an expression: another walk finds nothing in it, and as a callee it means the
    same. -/
structure Settled (before after : Expr) : Prop where
  calm : Calm ((editor u symbols).editExpr after) (some after)
  symbolOf_eq : symbolOf u after = symbolOf u before

section

variable {u symbols} {callee : Expr} {type : Option TypeRef} {source : Option SourceContext}

theorem calm_call {arguments : List Expr}
    (hc : Calm ((editor u symbols).editExpr callee) (some callee))
    (ha : Calm ((editor u symbols).editExprs arguments) (some arguments))
    (hs : symbolOf u callee = .ok none ∨
      ∃ symbol, symbolOf u callee = .ok (some symbol) ∧ isDefined symbols symbol = true) :
    Calm ((editor u symbols).editExpr ⟨.call callee arguments, type, source⟩)
      (some ⟨.call callee arguments, type, source⟩) := by
  have hwalk : Calm (do
      let callee ← (editor u symbols).editExpr callee
      let arguments ← (editor u symbols).editExprs arguments
      return ⟨.call callee arguments, type, source⟩ : Edit Elimination Expr)
      (some ⟨.call callee arguments, type, source⟩) :=
    hc.bindEdit (ha.bindEdit (.pureEdit _))
  show Calm (editCall u symbols callee _) _
  rcases hs with hs | ⟨symbol, hs, hd⟩
  · simp only [editCall, hs]
    exact hwalk
  · simp only [editCall, hs, hd, if_true]
    exact hwalk

/-- A call that is left is bound to no symbol, or to one that is defined. -/
theorem editCall_settles {arguments : List Expr} {walk : Edit Elimination Expr}
    (h : Ensures walk fun o => ∀ e ∈ o, ∃ callee' arguments', Settled u symbols callee callee' ∧
      Calm ((editor u symbols).editExprs arguments') (some arguments') ∧
      e = ⟨.call callee' arguments', type, source⟩) :
    Ensures (editCall u symbols callee walk) fun o => ∀ e ∈ o,
      Settled u symbols ⟨.call callee arguments, type, source⟩ e := by
  have hleft : (symbolOf u callee = .ok none ∨
      ∃ symbol, symbolOf u callee = .ok (some symbol) ∧ isDefined symbols symbol = true) →
      Ensures walk fun o => ∀ e ∈ o,
        Settled u symbols ⟨.call callee arguments, type, source⟩ e := by
    intro hs s hfailure
    obtain ⟨hbefore, hpost⟩ := h s hfailure
    refine ⟨hbefore, fun e he => ?_⟩
    obtain ⟨callee', arguments', hc, ha, rfl⟩ := hpost e he
    refine ⟨calm_call hc.calm ha ?_, rfl⟩
    rw [hc.symbolOf_eq]
    exact hs
  rcases hs : symbolOf u callee with e | _ | symbol
  · intro s hfailure
    simp only [editCall, hs] at hfailure
    -- the failure noted before the walk would still be there
    obtain ⟨hnoted, -⟩ := h _ hfailure
    cases hbefore : s.failure <;> simp [hbefore] at hnoted
  · simp only [editCall, hs]
    exact hleft (.inl hs)
  · simp only [editCall, hs]
    rcases hd : isDefined symbols symbol
    · refine fun s hfailure => ⟨hfailure, ?_⟩
      rintro _ ⟨⟩
    · exact hleft (.inr ⟨symbol, hs, hd⟩)

end

theorem editStmt_assignment (target value : Expr) (source : Option SourceContext) :
    (editor u symbols).editStmt ⟨.assignment target value, source⟩ = do
      let target ← (editor u symbols).editExpr target
      let value ← (editor u symbols).editExpr value
      return ⟨.assignment target value, source⟩ := by
  obtain ⟨form, type, targetSource⟩ := target
  cases form <;> rfl

mutual

theorem editExpr_settles : (e : Expr) →
    Ensures ((editor u symbols).editExpr e) fun o => ∀ e' ∈ o, Settled u symbols e e'
  | ⟨form, type, source⟩ => by
    rw [Editor.editExpr]
    exact walkExpr_settles type source form

theorem walkExpr_settles (type : Option TypeRef) (source : Option SourceContext) :
    (form : ExprForm) →
    Ensures ((editor u symbols).walkExpr type source form) fun o => ∀ e ∈ o,
      Settled u symbols ⟨form, type, source⟩ e
  | .member receiver ref => by
    rw [Editor.walkExpr]
    exact (editReceiver_settles receiver).bindEdit fun _ =>
      .pureEdit fun hr => ⟨hr.bindEdit (.pureEdit _), rfl⟩
  | .call callee arguments => by
    rw [Editor.walkExpr]
    exact editCall_settles ((editExpr_settles callee).bindEdit fun _ =>
      (editExprs_settles arguments).bindEdit fun _ =>
        .pureEdit fun ha hc => ⟨_, _, hc, ha, rfl⟩)
  | .qualified qualifier name => by
    rw [Editor.walkExpr]
    exact (editExpr_settles qualifier).bindEdit fun _ =>
      .pureEdit fun hq => ⟨hq.calm.bindEdit (.pureEdit _), rfl⟩
  | .binary op left right => by
    rw [Editor.walkExpr]
    exact (editExpr_settles left).bindEdit fun _ => (editExpr_settles right).bindEdit fun _ =>
      .pureEdit fun hr hl => ⟨hl.calm.bindEdit (hr.calm.bindEdit (.pureEdit _)), rfl⟩
  | .assignment statement => by
    rw [Editor.walkExpr]
    exact (editStmt_settles statement).bindEdit fun _ =>
      .pureEdit fun hs => ⟨hs.bindEdit (.pureEdit _), rfl⟩
  | .cast operand target => by
    rw [Editor.walkExpr]
    exact (editExpr_settles operand).bindEdit fun _ =>
      .pureEdit fun ho => ⟨ho.calm.bindEdit (.pureEdit _), rfl⟩
  | .indexer object operands => by
    rw [Editor.walkExpr]
    exact (editExpr_settles object).bindEdit fun _ => (editExprs_settles operands).bindEdit fun _ =>
      .pureEdit fun hs ho => ⟨ho.calm.bindEdit (hs.bindEdit (.pureEdit _)), rfl⟩
  | .constructArray element size initializers => by
    rw [Editor.walkExpr]
    exact (editExpr_settles size).bindEdit fun _ =>
      (editExprs_settles initializers).bindEdit fun _ =>
        .pureEdit fun hi hs => ⟨hs.calm.bindEdit (hi.bindEdit (.pureEdit _)), rfl⟩
  | .construct constructed operands => by
    rw [Editor.walkExpr]
    exact (editExprs_settles operands).bindEdit fun _ =>
      .pureEdit fun ho => ⟨ho.bindEdit (.pureEdit _), rfl⟩
  | .constructDelegate delegate target method => by
    rw [Editor.walkExpr]
    exact (editExpr_settles target).bindEdit fun _ =>
      .pureEdit fun ht => ⟨ht.calm.bindEdit (.pureEdit _), rfl⟩
  | .addressOf operand => by
    rw [Editor.walkExpr]
    exact (editExpr_settles operand).bindEdit fun _ =>
      .pureEdit fun ho => ⟨ho.calm.bindEdit (.pureEdit _), rfl⟩
  | .block block => by
    rw [Editor.walkExpr]
    exact (editBlock_settles block).always.bindEdit fun _ =>
      .pureEdit fun hb => ⟨hb.always.bindEdit (.pureEdit _), rfl⟩
  | .literal _ | .identifier _ | .thisRef | .baseRef | .setterValue | .typeExpr _ | .typeOf _
  | .snippet | .temporary _ | .missing => by
    rw [Editor.walkExpr]
    exact .pureEdit ⟨.pureEdit _, rfl⟩

theorem editReceiver_settles : (e : Option Expr) →
    Ensures ((editor u symbols).editReceiver e) fun o => ∀ e' ∈ o,
      Calm ((editor u symbols).editReceiver e') (some e')
  | none => by
    rw [Editor.editReceiver]
    exact .pureEdit (.pureEdit none)
  | some e => by
    rw [Editor.editReceiver]
    exact (editExpr_settles e).bindEdit fun _ => .pureEdit fun he => he.calm.bindEdit (.pureEdit _)

theorem editExprs_settles : (es : List Expr) →
    Ensures ((editor u symbols).editExprs es) fun o => ∀ es' ∈ o,
      Calm ((editor u symbols).editExprs es') (some es')
  | [] => by
    rw [Editor.editExprs]
    exact .pureEdit (.pureEdit [])
  | e :: es => by
    rw [Editor.editExprs]
    exact (editExpr_settles e).bindEdit fun _ => (editExprs_settles es).bindEdit fun _ =>
      .pureEdit fun hs he => he.calm.bindEdit (hs.bindEdit (.pureEdit _))

theorem editOption_settles : (e : Option Expr) →
    Ensures ((editor u symbols).editOption e) fun e' =>
      Calm ((editor u symbols).editOption e') e'
  | none => by
    rw [Editor.editOption]
    exact .pure (.pure none)
  | some e => by
    rw [Editor.editOption]
    refine (editExpr_settles e).of fun e' h => ?_
    cases e' with
    | none => exact .pure none
    | some e' => exact (h e' rfl).calm

theorem editStmt_settles : (s : Stmt) →
    Ensures ((editor u symbols).editStmt s) fun o => ∀ s' ∈ o,
      Calm ((editor u symbols).editStmt s') (some s')
  | ⟨.assignment target value, source⟩ => by
    rw [editStmt_assignment]
    refine (editExpr_settles target).bindEdit fun _ => (editExpr_settles value).bindEdit fun _ =>
      .pureEdit fun hv ht => ?_
    rw [editStmt_assignment]
    exact ht.calm.bindEdit (hv.calm.bindEdit (.pureEdit _))
  | ⟨.attachEvent event handler, source⟩ => by
    rw [Editor.editStmt]
    exact (editExpr_settles event).bindEdit fun _ => (editExpr_settles handler).bindEdit fun _ =>
      .pureEdit fun hh he => he.calm.bindEdit (hh.calm.bindEdit (.pureEdit _))
  | ⟨.removeEvent event handler, source⟩ => by
    rw [Editor.editStmt]
    exact (editExpr_settles event).bindEdit fun _ => (editExpr_settles handler).bindEdit fun _ =>
      .pureEdit fun hh he => he.calm.bindEdit (hh.calm.bindEdit (.pureEdit _))
  | ⟨.branch condition whenTrue whenFalse, source⟩ => by
    rw [Editor.editStmt]
    exact (editExpr_settles condition).bindEdit fun _ =>
      (editBlock_settles whenTrue).always.bindEdit fun _ =>
      (editBlock_settles whenFalse).always.bindEdit fun _ => .pureEdit fun hf ht hc =>
        hc.calm.bindEdit (ht.always.bindEdit (hf.always.bindEdit (.pureEdit _)))
  | ⟨.expression expression, source⟩ => by
    rw [Editor.editStmt]
    exact (editExpr_settles expression).bindEdit fun _ =>
      .pureEdit fun he => he.calm.bindEdit (.pureEdit _)
  | ⟨.labeled label statement, source⟩ => by
    rw [Editor.editStmt]
    exact (editLabeled_settles statement).always.bindEdit fun _ =>
      .pureEdit fun hs => hs.always.bindEdit (.pureEdit _)
  | ⟨.loop init test increment body, source⟩ => by
    rw [Editor.editStmt]
    exact (editStmts_settles init).always.bindEdit fun _ =>
      (editOption_settles test).always.bindEdit fun _ =>
      (editStmts_settles increment).always.bindEdit fun _ =>
      (editBlock_settles body).always.bindEdit fun _ => .pureEdit fun hb hs ht hi =>
        hi.always.bindEdit (ht.always.bindEdit (hs.always.bindEdit
          (hb.always.bindEdit (.pureEdit _))))
  | ⟨.ret value, source⟩ => by
    rw [Editor.editStmt]
    exact (editOption_settles value).always.bindEdit fun _ =>
      .pureEdit fun hv => hv.always.bindEdit (.pureEdit _)
  | ⟨.raise value, source⟩ => by
    rw [Editor.editStmt]
    exact (editOption_settles value).always.bindEdit fun _ =>
      .pureEdit fun hv => hv.always.bindEdit (.pureEdit _)
  | ⟨.protect body catchers last, source⟩ => by
    rw [Editor.editStmt]
    exact (editBlock_settles body).always.bindEdit fun _ =>
      (editCatchers_settles catchers).always.bindEdit fun _ =>
      (editLast_settles last).always.bindEdit fun _ => .pureEdit fun hl hc hb =>
        hb.always.bindEdit (hc.always.bindEdit (hl.always.bindEdit (.pureEdit _)))
  | ⟨.declaration name type init, source⟩ => by
    rw [Editor.editStmt]
    exact (editOption_settles init).always.bindEdit fun _ =>
      .pureEdit fun hi => hi.always.bindEdit (.pureEdit _)
  | ⟨.block block, source⟩ => by
    rw [Editor.editStmt]
    exact (editBlock_settles block).always.bindEdit fun _ =>
      .pureEdit fun hb => hb.always.bindEdit (.pureEdit _)
  | ⟨.goto _, _⟩ | ⟨.snippet, _⟩ => by
    rw [Editor.editStmt]
    exact .pureEdit (.pureEdit _)

theorem editStmts_settles : (ss : List Stmt) →
    Ensures ((editor u symbols).editStmts ss) fun ss' =>
      Calm ((editor u symbols).editStmts ss') ss'
  | [] => by
    rw [Editor.editStmts]
    exact .pure (.pure [])
  | s :: ss => by
    rw [Editor.editStmts]
    refine .bind (editStmt_settles s) fun s' => .bind (editStmts_settles ss) fun ss' =>
      .pure fun hss hs => ?_
    -- a deleted statement is not in the list that is left
    cases s' with
    | none => exact hss
    | some s' => exact .bind (hs s' rfl) (.bind hss (.pure _))

theorem editLabeled_settles : (s : Option Stmt) →
    Ensures ((editor u symbols).editLabeled s) fun s' =>
      Calm ((editor u symbols).editLabeled s') s'
  | none => by
    rw [Editor.editLabeled]
    exact .pure (.pure none)
  | some s => by
    rw [Editor.editLabeled]
    refine (editStmt_settles s).of fun s' h => ?_
    cases s' with
    | none => exact .pure none
    | some s' => exact h s' rfl

theorem editCatchers_settles : (cs : List Catcher) →
    Ensures ((editor u symbols).editCatchers cs) fun cs' =>
      Calm ((editor u symbols).editCatchers cs') cs'
  | [] => by
    rw [Editor.editCatchers]
    exact .pure (.pure [])
  | ⟨type, name, block⟩ :: cs => by
    rw [Editor.editCatchers]
    exact .bind (editBlock_settles block) fun _ => .bind (editCatchers_settles cs) fun _ =>
      .pure fun hcs hb => .bind hb (.bind hcs (.pure _))

theorem editLast_settles : (b : Option Block) →
    Ensures ((editor u symbols).editLast b) fun b' => Calm ((editor u symbols).editLast b') b'
  | none => by
    rw [Editor.editLast]
    exact .pure (.pure none)
  | some b => by
    rw [Editor.editLast]
    exact .bind (editBlock_settles b) fun _ => .pure fun hb => .bind hb (.pure _)

theorem editBlock_settles : (b : Block) →
    Ensures ((editor u symbols).editBlock b) fun b' => Calm ((editor u symbols).editBlock b') b'
  | ⟨statements, source⟩ => by
    rw [Editor.editBlock]
    exact .bind (editStmts_settles statements) fun _ => .pure fun hss => .bind hss (.pure _)

end

/-- What becomes of a body that an elimination has been through: nothing. -/
theorem editBody_again {ref : MemberRef} {body : Body} {state : State}
    (h : (editBody u ref body state).failure = none) (ref' : MemberRef) {state' : State}
    (hs : state'.symbols = state.symbols) :
    editBody u ref' (editBody u ref body state).body state' =
      { body := (editBody u ref body state).body, state := state' } := by
  have hcalm : Calm ((editor u state.symbols).editBlock (editBody u ref body state).body.block)
      (editBody u ref body state).body.block :=
    (editBlock_settles u state.symbols body.block {} h).2
  generalize (editBody u ref body state).body = left at hcalm
  rw [← hs] at hcalm
  unfold editBody
  rw [hcalm]
  rfl

end MiddleEnd.Conditional
