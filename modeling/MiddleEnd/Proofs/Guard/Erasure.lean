/-
  Guard instrumentation can be undone. `eraseGuards` puts a plain access in the place of every
  guarded group, from the inside out: a group is told by its statements, its temporaries and the
  getter that belongs to the field. Erasing the guards of an instrumented body gives the body that
  was instrumented, with one difference: the target of a guarded write that had no static type now
  has that of its field (`eraseGuards_editBody`). So every receiver and every stored value is still
  there once and in its order, and nothing else is changed.

  The body must not use temporaries of its own, or it could hold a group before.
-/
import MiddleEnd.Proofs.Code.Occurrence
import MiddleEnd.Proofs.Code.Rewriting
import MiddleEnd.Proofs.Guard.Step
import MiddleEnd.Proofs.Sample

namespace MiddleEnd.Guard

/-! ## Groups -/

/-- The temporary, the getter and the check of `temp.getter().check()`. -/
def checkParts? : Stmt → Option (LocalId × MemberRef × MemberRef)
  | ⟨.expression ⟨.call ⟨.member (some ⟨.call ⟨.member (some ⟨.temporary id, _, _⟩) getter, _, _⟩
      [], _, _⟩) check, _, _⟩ [], _, _⟩, none⟩ => some (id, getter, check)
  | _ => none

/-- The plain read that a group of three statements stands for. -/
def readOf? (u : Universe) (w : WellKnown) : Block → Option ExprForm
  | ⟨[⟨.assignment ⟨.temporary id, _, _⟩ receiver, none⟩, check,
      ⟨.expression ⟨.member (some ⟨.temporary read, _, _⟩) ref, _, _⟩, none⟩], none⟩ =>
    match readGetter? u ref with
    | some getter =>
      if read = id ∧ checkParts? check = some (id, getter, w.checkIsReading) then
        some (.member (some receiver) ref)
      else none
    | none => none
  | _ => none

/-- The plain write that a group of four statements stands for. -/
def writeOf? (u : Universe) (w : WellKnown) : Block → Option StmtForm
  | ⟨[⟨.assignment ⟨.temporary id, _, _⟩ receiver, none⟩,
      ⟨.assignment ⟨.temporary valueId, _, _⟩ value, none⟩, check,
      ⟨.assignment ⟨.member (some ⟨.temporary written, _, _⟩) ref, type, source⟩
        ⟨.temporary stored, _, _⟩, none⟩], none⟩ =>
    match writeGetter? u ref with
    | some getter =>
      if written = id ∧ stored = valueId ∧ id ≠ valueId ∧
          checkParts? check = some (id, getter, w.checkIsWriting) then
        some (.assignment ⟨.member (some receiver) ref, type, source⟩ value)
      else none
    | none => none
  | _ => none

/-- Puts plain accesses in the place of groups. -/
def eraser (u : Universe) (w : WellKnown) : Rewriting where
  block := fun b => (readOf? u w b).getD (.block b)
  blockStmt := fun b => (writeOf? u w b).getD (.block b)

def eraseGuards (u : Universe) (w : WellKnown) (b : Block) : Block := (eraser u w).onBlock b

/-- The static type of the target of a write: that of its field if it had none and the write is
    guarded. -/
def targetType (u : Universe) (ref : MemberRef) (type : Option TypeRef) : Option TypeRef :=
  match facts? u ref with
  | some facts => if facts.writeGuard.isSome then some (type.getD facts.type) else type
  | none => type

def typeTarget (u : Universe) : Expr → Expr
  | ⟨.member (some receiver) ref, type, source⟩ =>
    ⟨.member (some receiver) ref, targetType u ref type, source⟩
  | e => e

/-- Gives the targets of guarded writes their static types. -/
def typer (u : Universe) : Rewriting where
  assignment := fun target value => .assignment (typeTarget u target) value

def typeTargets (u : Universe) (b : Block) : Block := (typer u).onBlock b

@[simp]
theorem eraser_assignment (u : Universe) (w : WellKnown) (target value : Expr) :
    (eraser u w).assignment target value = .assignment target value := rfl

@[simp]
theorem eraser_block (u : Universe) (w : WellKnown) (b : Block) :
    (eraser u w).block b = (readOf? u w b).getD (.block b) := rfl

@[simp]
theorem eraser_blockStmt (u : Universe) (w : WellKnown) (b : Block) :
    (eraser u w).blockStmt b = (writeOf? u w b).getD (.block b) := rfl

@[simp]
theorem typer_assignment (u : Universe) (target value : Expr) :
    (typer u).assignment target value = .assignment (typeTarget u target) value := rfl

@[simp]
theorem typer_block (u : Universe) (b : Block) : (typer u).block b = .block b := rfl

@[simp]
theorem typer_blockStmt (u : Universe) (b : Block) : (typer u).blockStmt b = .block b := rfl

/-! ## Groups stand for what they replaced -/

section

variable {u : Universe} {w : WellKnown} {id valueId : LocalId} {ref getter : MemberRef}
  {facts : FieldFacts}

theorem eraser_onExpr_readGroup {type : Option TypeRef} {source : Option SourceContext}
    {form : ExprForm} {receiver : Expr} (hf : facts? u ref = some facts)
    (hg : facts.readGuard = some getter) :
    (eraser u w).onExpr (readGroup w id ⟨form, type, source⟩ receiver ref facts getter) =
      ⟨.member (some ((eraser u w).onExpr receiver)) ref, type, source⟩ := by
  have hr : readGetter? u ref = some getter := by rw [readGetter?, hf]; exact hg
  simp [readGroup, tempFor, checkStmt, ExprForm.expr, Stmt.assignment, Stmt.expression, eraser,
    readOf?, checkParts?, hr]

theorem eraser_onStmt_writeGroup {target receiver value : Expr} {source : Option SourceContext}
    (hf : facts? u ref = some facts) (hg : facts.writeGuard = some getter) (hid : id ≠ valueId) :
    (eraser u w).onStmt (writeGroup w id valueId target receiver value source ref facts getter) =
      ⟨.assignment ⟨.member (some ((eraser u w).onExpr receiver)) ref,
        some (target.type.getD facts.type), target.source⟩ ((eraser u w).onExpr value),
        source⟩ := by
  have hr : writeGetter? u ref = some getter := by rw [writeGetter?, hf]; exact hg
  simp [writeGroup, tempFor, checkStmt, ExprForm.expr, Stmt.assignment, Stmt.expression, eraser,
    writeOf?, checkParts?, hr, hid]

theorem typeTarget_guarded {receiver : Expr} {type : Option TypeRef}
    {source : Option SourceContext} (hf : facts? u ref = some facts)
    (hg : facts.writeGuard = some getter) :
    typeTarget u ⟨.member (some receiver) ref, type, source⟩ =
      ⟨.member (some receiver) ref, some (type.getD facts.type), source⟩ := by
  simp [typeTarget, targetType, hf, hg]

theorem typeTarget_plain {receiver : Option Expr} {type : Option TypeRef}
    {source : Option SourceContext} (h : writeGetter? u ref = none ∨ receiver = none) :
    typeTarget u ⟨.member receiver ref, type, source⟩ = ⟨.member receiver ref, type, source⟩ := by
  rcases receiver with _ | receiver
  · rfl
  · have hg : writeGetter? u ref = none := by simpa using h
    simp only [typeTarget, targetType]
    rcases hf : facts? u ref with _ | facts
    · rfl
    · have : facts.writeGuard = none := by simpa [writeGetter?, hf] using hg
      simp [this]

end

/-! ## What is no group -/

theorem readOf?_of_assigned? {u : Universe} {w : WellKnown} {b : Block}
    (h : ∀ s ∈ b.statements, s.assigned? = none) : readOf? u w b = none := by
  unfold readOf?
  split
  · simp [Stmt.assigned?, Expr.temporary?] at h
  · rfl

theorem writeOf?_of_assigned? {u : Universe} {w : WellKnown} {b : Block}
    (h : ∀ s ∈ b.statements, s.assigned? = none) : writeOf? u w b = none := by
  unfold writeOf?
  split
  · simp [Stmt.assigned?, Expr.temporary?] at h
  · rfl

theorem typeTarget_temporary? (u : Universe) (e : Expr) :
    (typeTarget u e).temporary? = e.temporary? := by
  unfold typeTarget
  split <;> rfl

theorem typer_onExpr_temporary? (u : Universe) (e : Expr) :
    ((typer u).onExpr e).temporary? = e.temporary? := by
  obtain ⟨form, type, source⟩ := e
  cases form <;> simp [Expr.temporary?, typer]

theorem typer_onStmt_assigned? (u : Universe) (s : Stmt) :
    ((typer u).onStmt s).assigned? = s.assigned? := by
  obtain ⟨form, source⟩ := s
  cases form with
  | assignment target value =>
      show (typeTarget u ((typer u).onExpr target)).temporary? = target.temporary?
      rw [typeTarget_temporary?, typer_onExpr_temporary?]
  | _ => simp [typer, Stmt.assigned?]

/-- Where no temporary occurs, no statement is the first of a group. -/
theorem typer_onStmts_assigned? {u : Universe} {ss : List Stmt}
    (h : NoTemporaries (stmtsExprs false ss)) :
    ∀ s ∈ (typer u).onStmts ss, s.assigned? = none := by
  induction ss with
  | nil => simp
  | cons s ss ih =>
      rw [stmtsExprs, noTemporaries_append] at h
      rw [Rewriting.onStmts, List.forall_mem_cons, typer_onStmt_assigned?]
      refine ⟨?_, ih h.2⟩
      obtain ⟨form, source⟩ := s
      cases form with
      | assignment target value =>
          obtain ⟨form, type, targetSource⟩ := target
          simp only [Stmt.exprs, StmtForm.exprs, Expr.exprs, List.cons_append,
            noTemporaries_cons] at h
          exact h.1.1
      | _ => rfl

/-! ## Instrumentation step by step -/

/-- The edited code, its guards erased, is the code with its targets typed. -/
def erasure (u : Universe) (w : WellKnown) : EditRelation State where
  expr e _ e' _ := NoTemporaries (e.exprs false) → (eraser u w).onExpr e' = (typer u).onExpr e
  walked e _ e' _ := NoTemporaries (e.exprs false) → (eraser u w).onExpr e' = (typer u).onExpr e
  option e _ e' _ :=
    NoTemporaries (optionExprs false e) → (eraser u w).onOption e' = (typer u).onOption e
  exprs es _ es' _ :=
    NoTemporaries (exprsExprs false es) → (eraser u w).onExprs es' = (typer u).onExprs es
  stmt s _ s' _ := NoTemporaries (s.exprs false) → (eraser u w).onStmt s' = (typer u).onStmt s
  labeled s _ s' _ :=
    NoTemporaries (labeledExprs false s) → (eraser u w).onLabeled s' = (typer u).onLabeled s
  stmts ss _ ss' _ :=
    NoTemporaries (stmtsExprs false ss) → (eraser u w).onStmts ss' = (typer u).onStmts ss
  catchers cs _ cs' _ :=
    NoTemporaries (catchersExprs false cs) → (eraser u w).onCatchers cs' = (typer u).onCatchers cs
  last b _ b' _ :=
    NoTemporaries (lastExprs false b) → (eraser u w).onLast b' = (typer u).onLast b
  block b _ b' _ := NoTemporaries (b.exprs false) → (eraser u w).onBlock b' = (typer u).onBlock b

theorem erasure_closed (u : Universe) (w : WellKnown) : (erasure u w).Closed (editor u w) := by
  constructor
  case expr => exact fun h => h
  case member =>
    intro receiver ref type source edit h
    refine editMember_yields h (fun s r s' hr _ hn => ?_)
      (fun s r s' facts getter hr hf hg hn => ?_)
    · have he := hr (by simpa [Expr.temporary?] using hn)
      simp [he]
    · have he := hr (by simpa [Expr.temporary?] using hn)
      rw [eraser_onExpr_readGroup hf hg]
      simpa using he
  case call =>
    intro callee arguments type source walk h s
    obtain ⟨_, s', run, callee', s₁, arguments', hc, ha, rfl⟩ := h s
    refine ⟨_, s', run, fun hn => ?_⟩
    simp only [Expr.exprs, ExprForm.exprs, noTemporaries_cons, noTemporaries_append] at hn
    simp [hc hn.2.1.1, ha hn.2.1.2]
  case assignMember =>
    intro receiver ref type targetSource source value editTarget editValue editReceiver ht hv hr
    refine editAssignment_yields ht hv hr (fun s t s₁ v s' hf ht hv hn => ?_)
      (fun s r s₁ v s' hr hv _ hg hn => ?_) (fun s r s₁ v s' facts getter hr hv hf hg hn => ?_)
    · simp only [Stmt.exprs, StmtForm.exprs, noTemporaries_append] at hn
      have hp : writeGetter? u ref = none := by rw [writeGetter?, hf]; rfl
      rw [Rewriting.onStmt, Rewriting.onStmtForm, ht hn.1, hv hn.2]
      simp [typeTarget_plain (Or.inl hp)]
    · simp only [Stmt.exprs, StmtForm.exprs, Expr.exprs, ExprForm.exprs, List.cons_append,
        noTemporaries_cons, noTemporaries_append] at hn
      have he := hr hn.2.1.1
      have hp : writeGetter? u ref = none ∨ (typer u).onOption receiver = none :=
        hg.imp_right fun h => by rw [← he, h]; rfl
      simp [he, hv hn.2.2, typeTarget_plain hp]
    · simp only [Stmt.exprs, StmtForm.exprs, Expr.exprs, ExprForm.exprs, List.cons_append,
        noTemporaries_cons, noTemporaries_append] at hn
      have he := hr hn.2.1.1
      rw [eraser_onStmt_writeGroup hf hg (by simp), hv hn.2.2]
      simp only [Rewriting.onOption] at he
      simp [← he, typeTarget_guarded hf hg]
  case assign =>
    intro target value source editTarget editValue hm ht hv
    rw [show (editor u w).assignment = editAssignment u w from rfl, editAssignment_walk hm]
    refine AssignmentParts.walk_yields ht hv fun s t s₁ v s' ht hv hn => ?_
    simp only [Stmt.exprs, StmtForm.exprs, noTemporaries_append] at hn
    simp only [Rewriting.onStmt, Rewriting.onStmtForm, ht hn.1, hv hn.2]
    obtain ⟨form, type, targetSource⟩ := target
    cases form <;> simp_all [typeTarget]
  case leaf =>
    intro form type source s h
    cases form <;> simp_all [ExprForm.isLeaf, erasure]
  case blockExpr =>
    intro block type source s block' s' h hn
    simp only [Expr.exprs, ExprForm.exprs, noTemporaries_cons, noTemporaries_append] at hn
    have hb := h hn.2.1
    obtain ⟨statements, blockSource⟩ := block
    have hr : readOf? u w ((typer u).onBlock ⟨statements, blockSource⟩) = none :=
      readOf?_of_assigned? (typer_onStmts_assigned? hn.2.1)
    rw [Rewriting.onExpr, Rewriting.onForm, hb, eraser_block, hr]
    rfl
  case blockStmt =>
    intro block source s block' s' h hn
    have hb := h hn
    obtain ⟨statements, blockSource⟩ := block
    have hr : writeOf? u w ((typer u).onBlock ⟨statements, blockSource⟩) = none :=
      writeOf?_of_assigned? (typer_onStmts_assigned? hn)
    rw [Rewriting.onStmt, Rewriting.onStmtForm, hb, eraser_blockStmt, hr]
    rfl
  all_goals
    intros
    simp_all [erasure]

/-- Erasing the guards of an instrumented body gives back the body, its targets typed. -/
theorem eraseGuards_editBody (u : Universe) (w : WellKnown) (method : MemberRef) (body : Body)
    (instrumented : Nat) (h : body.block.NoTemporaries) :
    eraseGuards u w (editBody w u method body instrumented).body.block =
      typeTargets u body.block :=
  (erasure_closed u w).editBlock body.block _ h

/-- One read and one write are instrumented in `copyCoins`, and erased again. -/
theorem eraseGuards_copyCoins :
    (editBody Wallet.checks Wallet.types Wallet.spare Wallet.copyCoins 0).state = 2 ∧
    eraseGuards Wallet.types Wallet.checks
        (editBody Wallet.checks Wallet.types Wallet.spare Wallet.copyCoins 0).body.block =
      typeTargets Wallet.types Wallet.copyCoins.block :=
  ⟨by decide, eraseGuards_editBody _ _ _ _ _ (by decide)⟩

end MiddleEnd.Guard
