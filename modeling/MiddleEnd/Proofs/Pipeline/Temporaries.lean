/-
  Temporaries through instrumentation and elimination. Instrumentation splits a guarded access into
  statements that share temporaries, and elimination deletes statements one by one. An access is
  torn apart if the statement that spills its receiver or its value goes, since the check and the
  access behind it stay and still read the temporary. `fateBlock` lists these accesses from the code
  as it was before both passes, and every temporary that is read is assigned by then exactly if
  there are none of them (`allDefined_iff_fateBlock`).
-/
import MiddleEnd.Proofs.Code.Read
import MiddleEnd.Proofs.Conditional.Survival
import MiddleEnd.Proofs.Guard.Step
import MiddleEnd.Proofs.Sample

namespace MiddleEnd.Pipeline

open Conditional Guard

section

variable (u : Universe) (dead : Expr → Bool)

mutual

/-- What becomes of an expression: it goes, or it stays with these accesses torn apart. -/
def fateExpr : Expr → Option (List MemberRef)
  | ⟨form, _, _⟩ => fateForm form

def fateForm : ExprForm → Option (List MemberRef)
  | .literal _ => some []
  | .identifier _ => some []
  | .qualified qualifier _ => fateExpr qualifier
  | .thisRef => some []
  | .baseRef => some []
  | .setterValue => some []
  | .binary _ left right => do return (← fateExpr left) ++ (← fateExpr right)
  | .assignment statement => fateStmt statement
  | .cast operand _ => fateExpr operand
  | .indexer object operands => do return (← fateExpr object) ++ (← fateExprs operands)
  | .constructArray _ size initializers => do
    return (← fateExpr size) ++ (← fateExprs initializers)
  | .construct _ operands => fateExprs operands
  | .constructDelegate _ target _ => fateExpr target
  | .call callee arguments =>
    if dead callee then none else do return (← fateExpr callee) ++ (← fateExprs arguments)
  | .member none _ => some []
  | .member (some receiver) ref =>
    if (readGetter? u ref).isSome then some ((fateExpr receiver).getD [ref]) else fateExpr receiver
  | .typeExpr _ => some []
  | .typeOf _ => some []
  | .addressOf operand => fateExpr operand
  | .snippet => some []
  | .block block => some (fateBlock block)
  | .temporary _ => some []
  | .missing => some []

def fateExprs : List Expr → Option (List MemberRef)
  | [] => some []
  | e :: es => do return (← fateExpr e) ++ (← fateExprs es)

/-- An optional expression that goes tears nothing apart. -/
def fateOption : Option Expr → List MemberRef
  | none => []
  | some e => (fateExpr e).getD []

def fateStmt : Stmt → Option (List MemberRef)
  | ⟨form, _⟩ => fateStmtForm form

def fateStmtForm : StmtForm → Option (List MemberRef)
  | .assignment ⟨.member (some receiver) ref, _, _⟩ value =>
    if (writeGetter? u ref).isSome then
      some ((fateExpr receiver).getD [ref] ++ (fateExpr value).getD [ref])
    else do return (← fateExpr receiver) ++ (← fateExpr value)
  | .assignment target value => do return (← fateExpr target) ++ (← fateExpr value)
  | .attachEvent event handler => do return (← fateExpr event) ++ (← fateExpr handler)
  | .removeEvent event handler => do return (← fateExpr event) ++ (← fateExpr handler)
  | .branch condition whenTrue whenFalse => do
    return (← fateExpr condition) ++ (fateBlock whenTrue ++ fateBlock whenFalse)
  | .expression expression => fateExpr expression
  | .goto _ => some []
  | .labeled _ statement => some (fateLabeled statement)
  | .loop init test increment body =>
    some (fateStmts init ++ fateOption test ++ fateStmts increment ++ fateBlock body)
  | .ret value => some (fateOption value)
  | .raise value => some (fateOption value)
  | .protect body catchers last =>
    some (fateBlock body ++ fateCatchers catchers ++ fateLast last)
  | .declaration _ _ init => some (fateOption init)
  | .snippet => some []
  | .block block => some (fateBlock block)

def fateLabeled : Option Stmt → List MemberRef
  | none => []
  | some s => (fateStmt s).getD []

/-- A statement that goes takes the accesses in it along. -/
def fateStmts : List Stmt → List MemberRef
  | [] => []
  | s :: ss => (fateStmt s).getD [] ++ fateStmts ss

def fateCatchers : List Catcher → List MemberRef
  | [] => []
  | ⟨_, _, block⟩ :: cs => fateBlock block ++ fateCatchers cs

def fateLast : Option Block → List MemberRef
  | none => []
  | some block => fateBlock block

/-- The accesses that are torn apart in a block. -/
def fateBlock : Block → List MemberRef
  | ⟨statements, _⟩ => fateStmts statements

end

end

attribute [simp] fateExpr fateForm fateExprs fateOption fateStmt fateStmtForm fateLabeled fateStmts
  fateCatchers fateLast fateBlock

/-! ## Kept code and its fate -/

/-- No temporary of the list has a number from `n` up to `n'`. -/
def Avoids (assigned : List LocalId) (n n' : Nat) : Prop :=
  ∀ id ∈ assigned, id.index < n ∨ n' ≤ id.index

/-- The code took the temporaries from `n` up to `n'`, and behind other ones its reads are all
    defined exactly if nothing is torn apart. -/
def Agree (n n' : Nat) (reads : List LocalId → List Read) (torn : List MemberRef) : Prop :=
  n ≤ n' ∧ ∀ assigned, Avoids assigned n n' → (AllDefined (reads assigned) ↔ torn = [])

/-- What is kept of the code goes or stays as its fate has it. -/
def Follows {α : Type} (n n' : Nat) (reads : List LocalId → α → List Read) :
    Option α → Option (List MemberRef) → Prop
  | none, none => n ≤ n'
  | some kept, some torn => Agree n n' (fun assigned => reads assigned kept) torn
  | _, _ => False

theorem Agree.append {n m n' : Nat} {r₁ r₂ : List LocalId → List Read} {t₁ t₂ : List MemberRef}
    (h₁ : Agree n m r₁ t₁) (h₂ : Agree m n' r₂ t₂) :
    Agree n n' (fun assigned => r₁ assigned ++ r₂ assigned) (t₁ ++ t₂) := by
  obtain ⟨hnm, h₁⟩ := h₁
  obtain ⟨hmn, h₂⟩ := h₂
  refine ⟨by omega, fun assigned ha => ?_⟩
  have left : Avoids assigned n m := fun id hid => by have := ha id hid; omega
  have right : Avoids assigned m n' := fun id hid => by have := ha id hid; omega
  rw [allDefined_append, h₁ assigned left, h₂ assigned right, List.append_eq_nil_iff]

theorem Agree.nil (n : Nat) : Agree n n (fun _ => []) [] :=
  ⟨Nat.le_refl n, fun _ _ => by simp⟩

section

variable {α β γ : Type} {n m n' : Nat}

theorem Follows.grows {reads : List LocalId → α → List Read} {kept : Option α}
    {fate : Option (List MemberRef)} (h : Follows n n' reads kept fate) : n ≤ n' := by
  rcases kept with _ | kept <;> rcases fate with _ | torn
  · exact h
  · exact h.elim
  · exact h.elim
  · exact h.1

theorem Follows.map {r : List LocalId → α → List Read} {reads : List LocalId → β → List Read}
    {make : α → β} {kept : Option α} {fate : Option (List MemberRef)}
    (h : Follows n n' r kept fate)
    (hr : ∀ x, kept = some x → ∀ assigned, reads assigned (make x) = r assigned x) :
    Follows n n' reads (kept.bind fun x => some (make x)) fate := by
  rcases kept with _ | x <;> rcases fate with _ | torn
  · exact h
  · exact h.elim
  · exact h.elim
  · simpa only [Follows, Option.bind_some, hr x rfl] using h

theorem Follows.both {r₁ : List LocalId → α → List Read} {r₂ : List LocalId → β → List Read}
    {reads : List LocalId → γ → List Read} {make : α → β → γ} {k₁ : Option α} {k₂ : Option β}
    {f₁ f₂ : Option (List MemberRef)} (h₁ : Follows n m r₁ k₁ f₁) (h₂ : Follows m n' r₂ k₂ f₂)
    (hr : ∀ x y, k₁ = some x → k₂ = some y →
      ∀ assigned, reads assigned (make x y) = r₁ assigned x ++ r₂ assigned y) :
    Follows n n' reads (k₁.bind fun x => k₂.bind fun y => some (make x y))
      (f₁.bind fun t₁ => f₂.bind fun t₂ => some (t₁ ++ t₂)) := by
  have hgrows : n ≤ n' := Nat.le_trans h₁.grows h₂.grows
  rcases k₁ with _ | x <;> rcases f₁ with _ | t₁
  · exact hgrows
  · exact h₁.elim
  · exact h₁.elim
  · rcases k₂ with _ | y <;> rcases f₂ with _ | t₂
    · exact hgrows
    · exact h₂.elim
    · exact h₂.elim
    · simpa only [Follows, Option.bind_some, hr x y rfl rfl] using Agree.append h₁ h₂

theorem Follows.behind {r : List LocalId → α → List Read} {r₂ : List LocalId → List Read}
    {reads : List LocalId → β → List Read} {make : α → β} {kept : Option α}
    {fate : Option (List MemberRef)} {torn₂ : List MemberRef} (h : Follows n m r kept fate)
    (h₂ : Agree m n' r₂ torn₂)
    (hr : ∀ x assigned, reads assigned (make x) = r assigned x ++ r₂ assigned) :
    Follows n n' reads (kept.bind fun x => some (make x))
      (fate.bind fun torn => some (torn ++ torn₂)) := by
  rcases kept with _ | x <;> rcases fate with _ | torn
  · exact Nat.le_trans h h₂.1
  · exact h.elim
  · exact h.elim
  · simpa only [Follows, Option.bind_some, hr] using Agree.append h h₂

/-- An optional part that goes reads nothing. -/
theorem Follows.optional {reads : List LocalId → α → List Read} {kept : Option α}
    {fate : Option (List MemberRef)} (h : Follows n n' reads kept fate) :
    Agree n n' (fun assigned => kept.elim [] (reads assigned)) (fate.getD []) := by
  rcases kept with _ | kept <;> rcases fate with _ | torn
  · exact ⟨h, fun _ _ => by simp⟩
  · exact h.elim
  · exact h.elim
  · exact h

end

/-! ## Elimination keeps what a statement assigns -/

section

variable {dead : Expr → Bool}

theorem keepExpr_temporary? {e k : Expr} (h : keepExpr dead e = some k) :
    k.temporary? = e.temporary? := by
  obtain ⟨form, type, source⟩ := e
  cases form with
  | call callee arguments =>
      simp only [keepExpr, keepForm, Option.ite_none_left_eq_some] at h
      obtain ⟨-, h⟩ := h
      simp only [bind, Option.bind_eq_some_iff, pure, Option.some.injEq] at h
      obtain ⟨_, -, _, -, rfl⟩ := h
      rfl
  | _ =>
      simp only [keepExpr, keepForm, bind, Option.bind_eq_some_iff, pure, Option.some.injEq] at h
      -- at most two parts of a form are required
      obtain ⟨_, -, _, -, rfl⟩ := h
      rfl

theorem keepStmt_assigned? {s k : Stmt} (h : keepStmt dead s = some k) :
    k.assigned? = s.assigned? := by
  obtain ⟨form, source⟩ := s
  cases form with
  | assignment target value =>
      simp only [keepStmt, keepStmtForm, bind, Option.bind_eq_some_iff, pure,
        Option.some.injEq] at h
      obtain ⟨t, ht, _, -, rfl⟩ := h
      exact keepExpr_temporary? ht
  | _ =>
      simp only [keepStmt, keepStmtForm, bind, Option.bind_eq_some_iff, pure,
        Option.some.injEq] at h
      -- at most two parts of a form are required
      obtain ⟨_, -, _, -, rfl⟩ := h
      rfl

/-- A statement that assigns no temporary leaves those behind it as they are. -/
theorem stmtsReads_kept {assigned : List LocalId} {s : Stmt} {rest : List Stmt}
    (h : s.assigned? = none) :
    stmtsReads assigned ((keepStmt dead s).toList ++ rest) =
      (keepStmt dead s).elim [] (Stmt.reads assigned) ++ stmtsReads assigned rest := by
  rcases hk : keepStmt dead s with _ | k
  · rfl
  · have hn : k.assigned? = none := by rw [keepStmt_assigned? hk, h]
    simp [hn]

end

/-! ## Groups -/

section

variable {dead : Expr → Bool} {id valueId : LocalId} {fallback : TypeRef}

theorem keepStmt_store {stored value : Expr} :
    keepStmt dead (.assignment (tempFor id stored fallback) value) =
      (keepExpr dead value).bind fun k => some (.assignment (tempFor id stored fallback) k) := rfl

theorem stmtsReads_store {stored k : Expr} {assigned : List LocalId} {rest : List Stmt} :
    stmtsReads assigned (.assignment (tempFor id stored fallback) k :: rest) =
      k.reads assigned ++ stmtsReads (assigned ++ [id]) rest := rfl

/-- A check reads its temporary, if it stays. -/
theorem allDefined_check {stored : Expr} {getter check : MemberRef} {assigned : List LocalId}
    {rest : List Stmt} :
    AllDefined (stmtsReads assigned
        ((keepStmt dead (checkStmt (tempFor id stored fallback) getter check)).toList ++ rest)) ↔
      (keepStmt dead (checkStmt (tempFor id stored fallback) getter check) = none ∨
        id ∈ assigned) ∧ AllDefined (stmtsReads assigned rest) := by
  by_cases hc : dead (ExprForm.member (some (ExprForm.call (ExprForm.member
      (some (tempFor id stored fallback)) getter).expr []).expr) check).expr = true
  · simp [checkStmt, Stmt.expression, ExprForm.expr, tempFor] at hc ⊢
    simp [hc]
  · by_cases hg : dead (ExprForm.member (some (tempFor id stored fallback)) getter).expr = true
    · simp [checkStmt, Stmt.expression, ExprForm.expr, tempFor] at hc hg ⊢
      simp [hc, hg]
    · simp [checkStmt, Stmt.expression, ExprForm.expr, tempFor] at hc hg ⊢
      simp [hc, hg, Stmt.assigned?, Read.Defined]

theorem allDefined_read {ref : MemberRef} {tempType type : Option TypeRef}
    {tempSource source : Option SourceContext} {assigned : List LocalId} :
    AllDefined (stmtsReads assigned
        [.expression ⟨.member (some ⟨.temporary id, tempType, tempSource⟩) ref, type, source⟩]) ↔
      id ∈ assigned := by
  simp [Stmt.expression, Read.Defined]

theorem allDefined_write {ref : MemberRef} {tempType heldType type : Option TypeRef}
    {tempSource heldSource source : Option SourceContext} {assigned : List LocalId} :
    AllDefined (stmtsReads assigned
        [.assignment ⟨.member (some ⟨.temporary id, tempType, tempSource⟩) ref, type, source⟩
          ⟨.temporary valueId, heldType, heldSource⟩]) ↔
      id ∈ assigned ∧ valueId ∈ assigned := by
  simp [Stmt.assignment, Read.Defined, Expr.temporary?]

/-- The value of a spill is read behind the same temporaries. A spill that goes leaves the
    temporary unassigned. -/
theorem follows_readGroup {w : WellKnown} {n n' : Nat} {e receiver : Expr} {ref getter : MemberRef}
    {facts : FieldFacts} {fate : Option (List MemberRef)}
    (h : Follows n n' Expr.reads (keepExpr dead receiver) fate) :
    Follows n (n' + 1) Expr.reads
      (keepExpr dead (readGroup w ⟨n'⟩ e receiver ref facts getter)) (some (fate.getD [ref])) := by
  have hgrows := h.grows
  refine ⟨by omega, fun assigned ha => ?_⟩
  have hfresh : (⟨n'⟩ : LocalId) ∉ assigned := fun hid => by have := ha _ hid; simp at this; omega
  show AllDefined (stmtsReads assigned ((keepStmt dead (.assignment _ receiver)).toList ++ _)) ↔ _
  rw [keepStmt_store]
  rcases hk : keepExpr dead receiver with _ | k <;> rcases fate with _ | torn <;> rw [hk] at h
  · show AllDefined (stmtsReads assigned (_ ++ [Stmt.expression _])) ↔ _
    rw [allDefined_check, allDefined_read]
    simp [hfresh]
  · exact h.elim
  · exact h.elim
  · show AllDefined (stmtsReads assigned (Stmt.assignment _ k :: (_ ++ [Stmt.expression _]))) ↔ _
    have hout : Avoids assigned n n' := fun id hid => by have := ha id hid; omega
    rw [stmtsReads_store, allDefined_append, allDefined_check, allDefined_read, h.2 assigned hout]
    simp

theorem follows_writeGroup {w : WellKnown} {n m n' : Nat} {target receiver value : Expr}
    {source : Option SourceContext} {ref getter : MemberRef} {facts : FieldFacts}
    {fate valueFate : Option (List MemberRef)}
    (h : Follows n m Expr.reads (keepExpr dead receiver) fate)
    (hv : Follows m n' Expr.reads (keepExpr dead value) valueFate) :
    Follows n (n' + 2) Stmt.reads
      (keepStmt dead
        (writeGroup w ⟨n'⟩ ⟨n' + 1⟩ target receiver value source ref facts getter))
      (some (fate.getD [ref] ++ valueFate.getD [ref])) := by
  have hgrows := h.grows
  have hvgrows := hv.grows
  refine ⟨by omega, fun assigned ha => ?_⟩
  have hfresh : (⟨n'⟩ : LocalId) ∉ assigned := fun hid => by have := ha _ hid; simp at this; omega
  have hfresh' : (⟨n' + 1⟩ : LocalId) ∉ assigned := fun hid => by
    have := ha _ hid; simp at this; omega
  show AllDefined (stmtsReads assigned ((keepStmt dead (.assignment _ receiver)).toList ++
    ((keepStmt dead (.assignment _ value)).toList ++ _))) ↔ _
  rw [keepStmt_store, keepStmt_store]
  rcases hk : keepExpr dead receiver with _ | k <;> rcases fate with _ | torn <;> rw [hk] at h
  · rcases hkv : keepExpr dead value with _ | kv
    · show AllDefined (stmtsReads assigned (_ ++ [Stmt.assignment _ _])) ↔ _
      rw [allDefined_check, allDefined_write]
      simp [hfresh]
    · show AllDefined (stmtsReads assigned
      (Stmt.assignment _ kv :: (_ ++ [Stmt.assignment _ _]))) ↔ _
      rw [stmtsReads_store, allDefined_append, allDefined_check, allDefined_write]
      simp [hfresh]
  · exact h.elim
  · exact h.elim
  · rcases hkv : keepExpr dead value with _ | kv <;> rcases valueFate with _ | valueTorn <;>
      rw [hkv] at hv
    · show AllDefined (stmtsReads assigned
      (Stmt.assignment _ k :: (_ ++ [Stmt.assignment _ _]))) ↔ _
      rw [stmtsReads_store, allDefined_append, allDefined_check, allDefined_write]
      simp [hfresh']
    · exact hv.elim
    · exact hv.elim
    · show AllDefined (stmtsReads assigned
        (Stmt.assignment _ k :: Stmt.assignment _ kv :: (_ ++ [Stmt.assignment _ _]))) ↔ _
      have hout : Avoids assigned n m := fun id hid => by have := ha id hid; omega
      -- The temporary of the receiver is taken behind those of the value.
      have hvout : Avoids (assigned ++ [⟨n'⟩]) m n' := fun id hid => by
        rcases List.mem_append.mp hid with hid | hid
        · have := ha id hid
          omega
        · rw [List.mem_singleton.mp hid]
          exact Or.inr (Nat.le_refl n')
      rw [stmtsReads_store, stmtsReads_store, allDefined_append, allDefined_append,
        allDefined_check, allDefined_write, h.2 assigned hout, hv.2 _ hvout]
      simp

end

/-! ## Instrumentation step by step -/

section

variable (u : Universe) (symbols : Option SymbolSet)

/-- The fate of a receiver is that of the expression. -/
def fateReceiver (dead : Expr → Bool) (receiver : Option Expr) : Option (List MemberRef) :=
  receiver.elim (some []) (fateExpr u dead)

structure ExprFate (e : Expr) (s : Guard.State) (e' : Expr) (s' : Guard.State) : Prop where
  temporary : e'.temporary? = none
  dead : isDead u symbols e' = isDead u symbols e
  follows : Follows s.tempCount s'.tempCount Expr.reads (keepExpr (isDead u symbols) e')
    (fateExpr u (isDead u symbols) e)

structure OptionFate (e : Option Expr) (s : Guard.State) (e' : Option Expr) (s' : Guard.State) :
    Prop where
  isSome : e'.isSome = e.isSome
  receiver : Follows s.tempCount s'.tempCount optionReads (keepReceiver (isDead u symbols) e')
    (fateReceiver u (isDead u symbols) e)
  value : Agree s.tempCount s'.tempCount
    (fun assigned => optionReads assigned (keepOption (isDead u symbols) e'))
    (fateOption u (isDead u symbols) e)

structure StmtFate (st : Stmt) (s : Guard.State) (st' : Stmt) (s' : Guard.State) : Prop where
  assigned : st'.assigned? = none
  follows : Follows s.tempCount s'.tempCount Stmt.reads (keepStmt (isDead u symbols) st')
    (fateStmt u (isDead u symbols) st)

/-- The instrumented code, once elimination went over it, has the fate that was told. -/
def fates : EditRelation Guard.State where
  expr e s e' s' := NoTemporaries (e.exprs false) → ExprFate u symbols e s e' s'
  walked e s e' s' := NoTemporaries (e.exprs false) → ExprFate u symbols e s e' s'
  option e s e' s' := NoTemporaries (optionExprs false e) → OptionFate u symbols e s e' s'
  exprs es s es' s' := NoTemporaries (exprsExprs false es) →
    Follows s.tempCount s'.tempCount exprsReads (keepExprs (isDead u symbols) es')
      (fateExprs u (isDead u symbols) es)
  stmt st s st' s' := NoTemporaries (st.exprs false) → StmtFate u symbols st s st' s'
  labeled st s st' s' := NoTemporaries (labeledExprs false st) →
    Agree s.tempCount s'.tempCount
      (fun assigned => labeledReads assigned (keepLabeled (isDead u symbols) st'))
      (fateLabeled u (isDead u symbols) st)
  stmts ss s ss' s' := NoTemporaries (stmtsExprs false ss) →
    Agree s.tempCount s'.tempCount
      (fun assigned => stmtsReads assigned (keepStmts (isDead u symbols) ss'))
      (fateStmts u (isDead u symbols) ss)
  catchers cs s cs' s' := NoTemporaries (catchersExprs false cs) →
    Agree s.tempCount s'.tempCount
      (fun assigned => catchersReads assigned (keepCatchers (isDead u symbols) cs'))
      (fateCatchers u (isDead u symbols) cs)
  last b s b' s' := NoTemporaries (lastExprs false b) →
    Agree s.tempCount s'.tempCount
      (fun assigned => lastReads assigned (keepLast (isDead u symbols) b'))
      (fateLast u (isDead u symbols) b)
  block b s b' s' := NoTemporaries (b.exprs false) →
    Agree s.tempCount s'.tempCount
      (fun assigned => (keepBlock (isDead u symbols) b').reads assigned)
      (fateBlock u (isDead u symbols) b)

end

theorem optionReads_elim (assigned : List LocalId) (e : Option Expr) :
    optionReads assigned e = e.elim [] (Expr.reads assigned) := by
  cases e <;> rfl

theorem labeledReads_elim (assigned : List LocalId) (s : Option Stmt) :
    labeledReads assigned s = s.elim [] (Stmt.reads assigned) := by
  cases s <;> rfl

theorem fateForm_member {u : Universe} {dead : Expr → Bool} {receiver : Option Expr}
    {ref : MemberRef} (h : readGetter? u ref = none ∨ receiver = none) :
    fateForm u dead (.member receiver ref) = fateReceiver u dead receiver := by
  rcases receiver with _ | receiver
  · rfl
  · have hg : readGetter? u ref = none := by simpa using h
    simp [hg, fateReceiver]

theorem fateStmtForm_assignMember {u : Universe} {dead : Expr → Bool} {receiver : Option Expr}
    {ref : MemberRef} {type : Option TypeRef} {source : Option SourceContext} {value : Expr}
    (h : writeGetter? u ref = none ∨ receiver = none) :
    fateStmtForm u dead (.assignment ⟨.member receiver ref, type, source⟩ value) =
      (fateReceiver u dead receiver).bind fun torn =>
        (fateExpr u dead value).bind fun torn' => some (torn ++ torn') := by
  rcases receiver with _ | receiver
  · rfl
  · have hg : writeGetter? u ref = none := by simpa using h
    simp [hg, fateReceiver]

/-- A receiver that is there goes or stays like any expression. -/
theorem Follows.ofReceiver {dead : Expr → Bool} {n n' : Nat} {e : Expr}
    {fate : Option (List MemberRef)}
    (h : Follows n n' optionReads (keepReceiver dead (some e)) fate) :
    Follows n n' Expr.reads (keepExpr dead e) fate := by
  rw [keepReceiver] at h
  rcases hk : keepExpr dead e with _ | k <;> rcases fate with _ | torn <;> rw [hk] at h
  · exact h
  · exact h.elim
  · exact h.elim
  · exact h

/-- A field is no method, so calls of its value stay. -/
theorem isDead_field {u : Universe} {symbols : Option SymbolSet} {ref : MemberRef}
    {facts : FieldFacts} {receiver : Option Expr} {type : Option TypeRef}
    {source : Option SourceContext} (h : facts? u ref = some facts) :
    isDead u symbols ⟨.member receiver ref, type, source⟩ = false := by
  obtain ⟨member, field, owner, hm, hf, -⟩ := field_of_facts? h
  have hmethod : member.method? = none := by
    obtain ⟨name, declaringType, attributes, kind, source⟩ := member
    cases kind <;> simp_all [Member.method?, Member.field?]
  simp [isDead, symbolOf, hm, hmethod, bind, Except.bind, pure, Except.pure]

theorem reads_assignment {target value : Expr} {source : Option SourceContext}
    {assigned : List LocalId} (h : target.temporary? = none) :
    Stmt.reads assigned ⟨.assignment target value, source⟩ =
      target.reads assigned ++ value.reads assigned := by
  simp [h]

section

variable {u : Universe} {symbols : Option SymbolSet} {s s₁ s' : Guard.State}
  {receiver r : Option Expr} {ref : MemberRef} {type : Option TypeRef}
  {targetSource source : Option SourceContext}

/-- Outside members and calls, code goes or stays with its parts. -/
theorem fates_node {form form' : ExprForm}
    (htemp : Expr.temporary? ⟨form', type, source⟩ = none)
    (hdead : isDead u symbols ⟨form', type, source⟩ = isDead u symbols ⟨form, type, source⟩)
    (h : NoTemporaries (form.exprs false) → Follows s.tempCount s'.tempCount Expr.reads
      (keepExpr (isDead u symbols) ⟨form', type, source⟩)
      (fateExpr u (isDead u symbols) ⟨form, type, source⟩)) :
    (fates u symbols).walked ⟨form, type, source⟩ s ⟨form', type, source⟩ s' := by
  intro hn
  rw [Expr.exprs, typeExprs_false, List.append_nil, noTemporaries_cons] at hn
  exact ⟨htemp, hdead, h hn.2⟩

theorem fates_call {callee callee' : Expr} {arguments arguments' : List Expr}
    (hc : (fates u symbols).expr callee s callee' s₁)
    (ha : (fates u symbols).exprs arguments s₁ arguments' s') :
    (fates u symbols).walked ⟨.call callee arguments, type, source⟩ s
      ⟨.call callee' arguments', type, source⟩ s' := by
  refine fates_node rfl rfl fun hn => ?_
  rw [ExprForm.exprs, noTemporaries_append] at hn
  obtain ⟨-, hdead, hc⟩ := hc hn.1
  have ha := ha hn.2
  rw [keepExpr, keepForm, fateExpr, fateForm, hdead]
  split
  · exact Nat.le_trans hc.grows ha.grows
  · exact hc.both ha fun _ _ _ _ _ => rfl

theorem fates_leaf {form : ExprForm} (h : form.isLeaf = true) :
    (fates u symbols).walked ⟨form, type, source⟩ s ⟨form, type, source⟩ s := by
  intro hn
  cases form with
  | temporary id => simp [Expr.temporary?] at hn
  | literal | identifier | thisRef | baseRef | setterValue | typeExpr | typeOf | snippet
  | missing => exact ⟨rfl, rfl, Agree.nil _⟩
  | _ => cases h

/-- A member that is not guarded goes or stays with its receiver. -/
theorem fates_member (hr : (fates u symbols).option receiver (s.noting u ref) r s')
    (hg : readGetter? u ref = none ∨ r = none) :
    (fates u symbols).walked ⟨.member receiver ref, type, source⟩ s ⟨.member r ref, type, source⟩
      s' := by
  refine fates_node rfl rfl fun hn => ?_
  obtain ⟨hsome, hr, -⟩ := hr hn
  have hplain : readGetter? u ref = none ∨ receiver = none := by
    refine hg.imp_right fun hnone => ?_
    simpa [hnone] using hsome
  rw [fateExpr, fateForm_member hplain]
  rw [Guard.State.tempCount_noting] at hr
  exact hr.map fun _ _ _ => rfl

theorem fates_readGroup {w : WellKnown} {e : Expr} {facts : FieldFacts} {getter : MemberRef}
    (hr : (fates u symbols).option receiver (s.noting u ref) (some e) s')
    (hf : facts? u ref = some facts) (hg : facts.readGuard = some getter) :
    (fates u symbols).walked ⟨.member receiver ref, type, source⟩ s
      (readGroup w ⟨s'.tempCount⟩ ⟨.member receiver ref, type, source⟩ e ref facts getter)
      (s'.afterRead ref) := by
  refine fates_node rfl (isDead_field hf).symm fun hn => ?_
  obtain ⟨hsome, hr, -⟩ := hr hn
  obtain ⟨receiver, rfl⟩ : ∃ e, receiver = some e := by
    simpa [Option.isSome_iff_exists] using hsome
  have hget : readGetter? u ref = some getter := by rw [readGetter?, hf]; exact hg
  rw [fateExpr, fateForm, hget]
  rw [Guard.State.tempCount_noting] at hr
  exact follows_readGroup hr.ofReceiver

/-- An assignment goes or stays with its target and its value, if its fate is told from theirs. -/
theorem fates_assignment {target value t v : Expr} {fate : Option (List MemberRef)}
    (hfate : fateStmt u (isDead u symbols) ⟨.assignment target value, source⟩ =
      fate.bind fun torn =>
        (fateExpr u (isDead u symbols) value).bind fun torn' => some (torn ++ torn'))
    (htemp : t.temporary? = none)
    (ht : Follows s.tempCount s₁.tempCount Expr.reads (keepExpr (isDead u symbols) t) fate)
    (hv : Follows s₁.tempCount s'.tempCount Expr.reads (keepExpr (isDead u symbols) v)
      (fateExpr u (isDead u symbols) value)) :
    StmtFate u symbols ⟨.assignment target value, source⟩ s ⟨.assignment t v, source⟩ s' := by
  refine ⟨htemp, ?_⟩
  rw [hfate]
  exact ht.both hv fun x y hx _ _ => reads_assignment ((keepExpr_temporary? hx).trans htemp)

theorem fates_assignNoField {value t v : Expr} (hf : facts? u ref = none)
    (ht : (fates u symbols).expr ⟨.member receiver ref, type, targetSource⟩ (s.noting u ref) t s₁)
    (hv : (fates u symbols).expr value s₁ v s') :
    (fates u symbols).stmt ⟨.assignment ⟨.member receiver ref, type, targetSource⟩ value, source⟩ s
      ⟨.assignment t v, source⟩ s' := by
  intro hn
  simp only [Stmt.exprs, StmtForm.exprs, noTemporaries_append] at hn
  obtain ⟨htemp, -, ht⟩ := ht hn.1
  have hr : readGetter? u ref = none := by rw [readGetter?, hf]; rfl
  have hw : writeGetter? u ref = none := by rw [writeGetter?, hf]; rfl
  rw [Guard.State.tempCount_noting] at ht
  refine fates_assignment ?_ htemp ht (hv hn.2).follows
  rw [fateStmt, fateStmtForm_assignMember (Or.inl hw), fateExpr, fateForm_member (Or.inl hr)]

theorem fates_assignMember {value v : Expr}
    (hr : (fates u symbols).option receiver (s.noting u ref) r s₁)
    (hv : (fates u symbols).expr value s₁ v s') (hg : writeGetter? u ref = none ∨ r = none) :
    (fates u symbols).stmt ⟨.assignment ⟨.member receiver ref, type, targetSource⟩ value, source⟩ s
      ⟨.assignment ⟨.member r ref, type, targetSource⟩ v, source⟩ s' := by
  intro hn
  simp only [Stmt.exprs, StmtForm.exprs, Expr.exprs, ExprForm.exprs, List.cons_append,
    noTemporaries_cons, noTemporaries_append] at hn
  obtain ⟨hsome, hr, -⟩ := hr hn.2.1.1
  have hplain : writeGetter? u ref = none ∨ receiver = none := by
    refine hg.imp_right fun hnone => ?_
    simpa [hnone] using hsome
  rw [Guard.State.tempCount_noting] at hr
  have ht : Follows s.tempCount s₁.tempCount Expr.reads
      (keepExpr (isDead u symbols) ⟨.member r ref, type, targetSource⟩)
      (fateReceiver u (isDead u symbols) receiver) := hr.map fun _ _ _ => rfl
  refine fates_assignment ?_ rfl ht (hv hn.2.2).follows
  rw [fateStmt, fateStmtForm_assignMember hplain]

theorem fates_writeGroup {w : WellKnown} {value e v : Expr} {facts : FieldFacts}
    {getter : MemberRef} (hr : (fates u symbols).option receiver (s.noting u ref) (some e) s₁)
    (hv : (fates u symbols).expr value s₁ v s') (hf : facts? u ref = some facts)
    (hg : facts.writeGuard = some getter) :
    (fates u symbols).stmt ⟨.assignment ⟨.member receiver ref, type, targetSource⟩ value, source⟩ s
      (writeGroup w ⟨s'.tempCount⟩ ⟨s'.tempCount + 1⟩ ⟨.member receiver ref, type, targetSource⟩ e v
        source ref facts getter) (s'.afterWrite ref) := by
  intro hn
  simp only [Stmt.exprs, StmtForm.exprs, Expr.exprs, ExprForm.exprs, List.cons_append,
    noTemporaries_cons, noTemporaries_append] at hn
  obtain ⟨hsome, hr, -⟩ := hr hn.2.1.1
  obtain ⟨-, -, hv⟩ := hv hn.2.2
  obtain ⟨receiver, rfl⟩ : ∃ e, receiver = some e := by
    simpa [Option.isSome_iff_exists] using hsome
  have hget : writeGetter? u ref = some getter := by rw [writeGetter?, hf]; exact hg
  refine ⟨rfl, ?_⟩
  rw [fateStmt, fateStmtForm, hget]
  rw [Guard.State.tempCount_noting] at hr
  exact follows_writeGroup hr.ofReceiver hv

theorem fates_assign {target value t v : Expr}
    (hm : ∀ receiver ref, target.form ≠ .member receiver ref)
    (ht : (fates u symbols).expr target s t s₁) (hv : (fates u symbols).expr value s₁ v s') :
    (fates u symbols).stmt ⟨.assignment target value, source⟩ s ⟨.assignment t v, source⟩ s' := by
  intro hn
  simp only [Stmt.exprs, StmtForm.exprs, noTemporaries_append] at hn
  obtain ⟨htemp, -, ht⟩ := ht hn.1
  refine fates_assignment ?_ htemp ht (hv hn.2).follows
  obtain ⟨form, type, targetSource⟩ := target
  cases form with
  | member receiver ref => exact absurd rfl (hm receiver ref)
  | _ => rfl

end

theorem fates_closed (u : Universe) (w : WellKnown) (symbols : Option SymbolSet) :
    (fates u symbols).Closed (Guard.editor u w) := by
  constructor
  case expr => exact fun h => h
  case member =>
    exact fun h => editMember_yields h (fun _ _ _ => fates_member)
      fun _ _ _ _ _ => fates_readGroup
  case call =>
    intro callee arguments type source walk h s
    obtain ⟨_, s', run, callee', s₁, arguments', hc, ha, rfl⟩ := h s
    exact ⟨_, s', run, fates_call hc ha⟩
  case assignMember =>
    exact fun ht hv hr => editAssignment_yields ht hv hr (fun _ _ _ _ _ => fates_assignNoField)
      (fun _ _ _ _ _ hr hv _ hg => fates_assignMember hr hv hg)
      fun _ _ _ _ _ _ _ => fates_writeGroup
  case assign =>
    intro target value source editTarget editValue hm ht hv
    rw [show (Guard.editor u w).assignment = editAssignment u w from rfl, editAssignment_walk hm]
    exact AssignmentParts.walk_yields ht hv fun _ _ _ _ _ => fates_assign hm
  case leaf => exact fates_leaf
  case qualified | assignment | addressOf =>
    intros
    rename_i h
    exact fates_node rfl rfl fun hn => (h hn).follows.map fun _ _ _ => rfl
  case binary =>
    intro op left right type source s left' s₁ right' s' h₁ h₂
    refine fates_node rfl rfl fun hn => ?_
    rw [ExprForm.exprs, noTemporaries_append] at hn
    exact (h₁ hn.1).follows.both (h₂ hn.2).follows fun _ _ _ _ _ => rfl
  case cast =>
    intro operand target type source s operand' s' h
    refine fates_node rfl rfl fun hn => ?_
    rw [ExprForm.exprs, noTemporaries_append] at hn
    exact (h hn.1).follows.map fun _ _ _ => rfl
  case indexer =>
    intro object operands type source s object' s₁ operands' s' h₁ h₂
    refine fates_node rfl rfl fun hn => ?_
    rw [ExprForm.exprs, noTemporaries_append] at hn
    exact (h₁ hn.1).follows.both (h₂ hn.2) fun _ _ _ _ _ => rfl
  case constructArray =>
    intro element size initializers type source s size' s₁ initializers' s' h₁ h₂
    refine fates_node rfl rfl fun hn => ?_
    rw [ExprForm.exprs, noTemporaries_append, noTemporaries_append] at hn
    exact (h₁ hn.1.2).follows.both (h₂ hn.2) fun _ _ _ _ _ => rfl
  case construct =>
    intro constructed operands type source s operands' s' h
    refine fates_node rfl rfl fun hn => ?_
    rw [ExprForm.exprs, noTemporaries_append] at hn
    exact (h hn.2).map fun _ _ _ => rfl
  case constructDelegate =>
    intro delegate target method type source s target' s' h
    refine fates_node rfl rfl fun hn => ?_
    rw [ExprForm.exprs, noTemporaries_append] at hn
    exact (h hn.2).follows.map fun _ _ _ => rfl
  case blockExpr => exact fun h => fates_node rfl rfl fun hn => h hn
  case optionNone => exact fun _ => ⟨rfl, Agree.nil _, Agree.nil _⟩
  case optionSome =>
    intro e s e' s' h hn
    have h := (h hn).follows
    refine ⟨rfl, h.map fun _ _ _ => rfl, ?_⟩
    simp only [optionReads_elim]
    exact h.optional
  case exprsNil => exact fun _ => Agree.nil _
  case exprsCons =>
    intro e es s e' s₁ es' s' h₁ h₂ hn
    simp only [exprsExprs, noTemporaries_append] at hn
    exact (h₁ hn.1).follows.both (h₂ hn.2) fun _ _ _ _ _ => rfl
  case attachEvent | removeEvent =>
    intros
    rename_i h₁ h₂
    intro hn
    rw [Stmt.exprs, StmtForm.exprs, noTemporaries_append] at hn
    exact ⟨rfl, (h₁ hn.1).follows.both (h₂ hn.2).follows fun _ _ _ _ _ => rfl⟩
  case branch =>
    intro condition whenTrue whenFalse source s condition' s₁ whenTrue' s₂ whenFalse' s' h₁ h₂ h₃ hn
    simp only [Stmt.exprs, StmtForm.exprs, noTemporaries_append] at hn
    refine ⟨rfl, (h₁ hn.1.1).follows.behind ((h₂ hn.1.2).append (h₃ hn.2)) fun _ _ => ?_⟩
    exact List.append_assoc _ _ _
  case expression =>
    intro expression source s expression' s' h hn
    exact ⟨rfl, (h hn).follows.map fun _ _ _ => rfl⟩
  case labeledStmt | blockStmt => exact fun h hn => ⟨rfl, h hn⟩
  case loop =>
    intro init test increment body source s init' s₁ test' s₂ increment' s₃ body' s' h₁ h₂ h₃ h₄ hn
    simp only [Stmt.exprs, StmtForm.exprs, noTemporaries_append] at hn
    exact ⟨rfl, (((h₁ hn.1.1.1).append (h₂ hn.1.1.2).value).append (h₃ hn.1.2)).append (h₄ hn.2)⟩
  case ret | raise => exact fun h hn => ⟨rfl, (h hn).value⟩
  case protect =>
    intro body catchers last source s body' s₁ catchers' s₂ last' s' h₁ h₂ h₃ hn
    simp only [Stmt.exprs, StmtForm.exprs, noTemporaries_append] at hn
    exact ⟨rfl, ((h₁ hn.1.1).append (h₂ hn.1.2)).append (h₃ hn.2)⟩
  case declaration =>
    intro name type init source s init' s' h hn
    simp only [Stmt.exprs, StmtForm.exprs, noTemporaries_append] at hn
    exact ⟨rfl, (h hn.2).value⟩
  case goto | snippet => exact fun _ => ⟨rfl, Agree.nil _⟩
  case labeledNone | stmtsNil | catchersNil | lastNone => exact fun _ => Agree.nil _
  case labeledSome =>
    intro st s st' s' h hn
    simp only [labeledReads_elim]
    exact (h hn).follows.optional
  case stmtsCons =>
    intro st ss s st' s₁ ss' s' h₁ h₂ hn
    simp only [stmtsExprs, noTemporaries_append] at hn
    obtain ⟨hassigned, h₁⟩ := h₁ hn.1
    simp only [keepStmts, stmtsReads_kept hassigned]
    exact h₁.optional.append (h₂ hn.2)
  case catchersCons =>
    intro type name block cs s block' s₁ cs' s' h₁ h₂ hn
    simp only [catchersExprs, noTemporaries_append] at hn
    exact (h₁ hn.1.2).append (h₂ hn.2)
  case lastSome | block => exact fun h hn => h hn

/-- Behind instrumentation and elimination, every temporary that is read is assigned by an earlier
    statement of its list or of one around it, exactly if no access is torn apart. -/
theorem allDefined_iff_fateBlock (u : Universe) (w : WellKnown) (method : MemberRef) (body : Body)
    (instrumented : Nat) (state : Conditional.State) (h : body.block.NoTemporaries) :
    AllDefined ((Conditional.editBody u method
        (Guard.editBody w u method body instrumented).body state).body.block.reads []) ↔
      fateBlock u (isDead u state.symbols) body.block = [] := by
  rw [Conditional.editBody_block]
  exact ((fates_closed u w state.symbols).editBlock body.block _ h).2 [] (by simp [Avoids])

/-- What instrumentation makes of `this.Spare().coins = this.coins`. -/
def guardedCopy : EditedBody Nat :=
  Guard.editBody Wallet.checks Wallet.types Wallet.spare Wallet.copyCoins 0

/-- What elimination leaves of it where these symbols are defined. -/
def eliminatedCopy (symbols : Option SymbolSet) : EditedBody Conditional.State :=
  Conditional.editBody Wallet.types Wallet.spare guardedCopy.body { symbols }

/-- Where `DEBUG` is defined, no access of the copy is torn apart. -/
theorem allDefined_eliminatedCopy :
    Wallet.copyCoins.block.NoTemporaries ∧
    AllDefined ((eliminatedCopy (some ⟨["DEBUG"]⟩)).body.block.reads []) :=
  ⟨by decide, (allDefined_iff_fateBlock _ _ _ _ _ _ (by decide)).mpr (by decide)⟩

/-- Without `DEBUG` the spare wallet is never assigned, and still asked for its guard. -/
theorem not_allDefined_eliminatedCopy :
    Wallet.copyCoins.block.NoTemporaries ∧ guardedCopy.failure = none ∧
    (eliminatedCopy none).failure = none ∧
    ¬ AllDefined ((eliminatedCopy none).body.block.reads []) := by
  decide

end MiddleEnd.Pipeline
