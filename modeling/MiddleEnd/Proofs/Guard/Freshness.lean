/-
  The temporaries of instrumented code. Instrumentation takes the numbers from the count of the
  body upwards, one for each guarded read and two for each guarded write. It assigns each of them
  once and reads it only behind its assignment, and it does nothing else with the ones that were
  there before (`Takes`, `takes_closed`).
-/
import MiddleEnd.Proofs.Code.Usage
import MiddleEnd.Proofs.Guard.Counting

namespace MiddleEnd.Guard

/-- The temporaries from `n` up to `n'` were taken for the edited code: each of them is assigned
    once more than it was and read behind that, and those before `n` are used as they were. -/
structure Takes (n n' : Nat) (old new : Usage) : Prop where
  grows : n ≤ n'
  occurring : ∀ base ≤ n,
    new.occurring.filter (·.index < base) = old.occurring.filter (·.index < base)
  stored : ∀ base ≤ n, new.stored.filter (·.index < base) = old.stored.filter (·.index < base)
  within : ∀ id ∈ new.occurring, id ∈ old.occurring ∨ n ≤ id.index ∧ id.index < n'
  once : ∀ id, new.stored.count id =
    old.stored.count id + if n ≤ id.index ∧ id.index < n' then 1 else 0
  defined : ∀ assigned, ∀ r ∈ new.reads assigned, r.Defined ∨ r.id ∈ old.occurring
  /-- To be assigned is to occur. -/
  assigned : ∀ id ∈ old.stored, id ∈ old.occurring

namespace Takes

variable {n m n' : Nat} {old new old₂ new₂ : Usage}

/-- Code that assigns nothing stays as it is. -/
theorem same (n : Nat) {usage : Usage} (hs : usage.stored = [])
    (h : ∀ assigned, ∀ r ∈ usage.reads assigned, r.id ∈ usage.occurring) :
    Takes n n usage usage where
  grows := Nat.le_refl n
  occurring _ _ := rfl
  stored _ _ := rfl
  within _ h := Or.inl h
  once id := by
    have hout : ¬ (n ≤ id.index ∧ id.index < n) := by omega
    rw [if_neg hout]
    rfl
  defined assigned r hr := Or.inr (h assigned r hr)
  assigned := by simp [hs]

theorem append (h₁ : Takes n m old new) (h₂ : Takes m n' old₂ new₂) :
    Takes n n' (old.append old₂) (new.append new₂) where
  grows := Nat.le_trans h₁.grows h₂.grows
  occurring base hb := by
    have hb₂ : base ≤ m := Nat.le_trans hb h₁.grows
    simp only [Usage.append, List.filter_append, h₁.occurring base hb, h₂.occurring base hb₂]
  stored base hb := by
    have hb₂ : base ≤ m := Nat.le_trans hb h₁.grows
    simp only [Usage.append, List.filter_append, h₁.stored base hb, h₂.stored base hb₂]
  within id hid := by
    have hle₁ := h₁.grows
    have hle₂ := h₂.grows
    rcases List.mem_append.mp hid with hid | hid
    · rcases h₁.within id hid with hold | hnew
      · exact Or.inl (List.mem_append_left _ hold)
      · exact Or.inr (by omega)
    · rcases h₂.within id hid with hold | hnew
      · exact Or.inl (List.mem_append_right _ hold)
      · exact Or.inr (by omega)
  once id := by
    have hle₁ := h₁.grows
    have hle₂ := h₂.grows
    simp only [Usage.append, List.count_append, h₁.once id, h₂.once id]
    split <;> split <;> split <;> omega
  defined assigned r hr := by
    rcases List.mem_append.mp hr with hr | hr
    · exact (h₁.defined assigned r hr).imp_right (List.mem_append_left _)
    · exact (h₂.defined assigned r hr).imp_right (List.mem_append_right _)
  assigned id hid := by
    rcases List.mem_append.mp hid with hid | hid
    · exact List.mem_append_left _ (h₁.assigned id hid)
    · exact List.mem_append_right _ (h₂.assigned id hid)

/-- The code assigns to more of its temporaries, before and after. -/
theorem store {ids : List LocalId} (h : Takes n n' old new)
    (hids : ∀ id ∈ ids, id ∈ old.occurring) :
    Takes n n' { old with stored := ids ++ old.stored }
      { new with stored := ids ++ new.stored } where
  grows := h.grows
  occurring := h.occurring
  stored base hb := by simp only [List.filter_append, h.stored base hb]
  within := h.within
  once id := by
    have honce := h.once id
    simp only [List.count_append]
    omega
  defined := h.defined
  assigned id hid := by
    rcases List.mem_append.mp hid with hid | hid
    · exact hids id hid
    · exact h.assigned id hid

/-- Only the reads of the edited code count, whatever is assigned before it. -/
theorem of_reads {old' new' : Usage} (h : Takes n n' old new)
    (ho : old'.occurring = old.occurring) (hos : old'.stored = old.stored)
    (hn : new'.occurring = new.occurring) (hns : new'.stored = new.stored)
    (hreads : ∀ assigned, ∀ r ∈ new'.reads assigned, ∃ before, r ∈ new.reads before) :
    Takes n n' old' new' := by
  obtain ⟨occurring, stored, reads⟩ := old'
  obtain ⟨occurring', stored', reads'⟩ := new'
  obtain rfl : occurring = _ := ho
  obtain rfl : stored = _ := hos
  obtain rfl : occurring' = _ := hn
  obtain rfl : stored' = _ := hns
  refine ⟨h.grows, h.occurring, h.stored, h.within, h.once, fun assigned r hr => ?_, h.assigned⟩
  obtain ⟨before, hr⟩ := hreads assigned r hr
  exact h.defined before r hr

/-- Another temporary is taken. It may occur anywhere, is assigned once, and is read only where it
    is assigned. -/
theorem spill {new' : Usage} (h : Takes n m old new)
    (hnew : new'.occurring.filter (· ≠ ⟨m⟩) = new.occurring.filter (· ≠ ⟨m⟩))
    (hstored : new'.stored.filter (· ≠ ⟨m⟩) = new.stored.filter (· ≠ ⟨m⟩))
    (hcount : new'.stored.count ⟨m⟩ = new.stored.count ⟨m⟩ + 1)
    (hreads : ∀ assigned, ∀ r ∈ new'.reads assigned, r.Defined ∨ ∃ before, r ∈ new.reads before) :
    Takes n (m + 1) old new' := by
  have hle := h.grows
  -- What lies below `n` is not the new temporary.
  have hbelow : ∀ base ≤ n, ∀ ids : List LocalId,
      ids.filter (·.index < base) = (ids.filter (· ≠ ⟨m⟩)).filter (·.index < base) := by
    intro base hb ids
    rw [List.filter_filter]
    refine List.filter_congr fun id _ => ?_
    have hne : id.index < base → id ≠ ⟨m⟩ := by
      rintro hlt rfl
      have hlt : m < base := hlt
      omega
    by_cases hlt : id.index < base
    · simp [hlt, hne hlt]
    · simp [hlt]
  refine ⟨by omega, fun base hb => ?_, fun base hb => ?_, fun id hid => ?_, fun id => ?_,
    fun assigned r hr => ?_, h.assigned⟩
  · rw [hbelow base hb, hnew, ← hbelow base hb, h.occurring base hb]
  · rw [hbelow base hb, hstored, ← hbelow base hb, h.stored base hb]
  · by_cases heq : id = ⟨m⟩
    · subst heq
      exact Or.inr ⟨hle, Nat.lt_succ_self m⟩
    · have hid : id ∈ new'.occurring.filter (· ≠ ⟨m⟩) :=
        List.mem_filter.mpr ⟨hid, by simpa using heq⟩
      rw [hnew] at hid
      rcases h.within id (List.mem_filter.mp hid).1 with hold | hin
      · exact Or.inl hold
      · exact Or.inr (by omega)
  · have honce := h.once id
    by_cases heq : id = ⟨m⟩
    · subst heq
      have hout : ¬ (n ≤ m ∧ m < m) := by omega
      rw [if_neg hout] at honce
      rw [if_pos ⟨hle, Nat.lt_succ_self m⟩, hcount, honce]
    · have hne : id.index ≠ m := fun hm => heq (by rw [← hm])
      have hcounts : ∀ ids : List LocalId, (ids.filter (· ≠ ⟨m⟩)).count id = ids.count id :=
        fun ids => List.count_filter (by simpa using heq)
      have hsame : new'.stored.count id = new.stored.count id := by
        rw [← hcounts, hstored, hcounts]
      have hiff : n ≤ id.index ∧ id.index < m ↔ n ≤ id.index ∧ id.index < m + 1 := by omega
      rw [hsame, honce]
      simp only [hiff]
  · rcases hreads assigned r hr with hr | ⟨before, hr⟩
    · exact Or.inl hr
    · exact h.defined before r hr

end Takes

/-! ## Groups -/

section

variable {w : WellKnown} {n m : Nat} {old : Usage} {e target receiver value : Expr}
  {source : Option SourceContext} {ref getter : MemberRef} {facts : FieldFacts}

/-- The usage of `{ temp = receiver; temp.getter().CheckIsReading(); temp.ref }` -/
theorem usage_readGroup (id : LocalId) :
    (readGroup w id e receiver ref facts getter).usage = {
      occurring := id :: (temporaries (receiver.exprs false) ++ [id, id])
      stored := id :: stores receiver.stmts
      reads := fun assigned => receiver.reads assigned ++
        [⟨id, assigned ++ [id]⟩, ⟨id, assigned ++ [id]⟩] } := by
  simp [Expr.usage, readGroup, tempFor, checkStmt, Stmt.assignment, Stmt.expression, ExprForm.expr,
    Expr.temporary?, Stmt.assigned?]

/-- The usage of `{ temp = receiver; held = value; temp.getter().CheckIsWriting();
    temp.ref = held }` -/
theorem usage_writeGroup (id valueId : LocalId) :
    (writeGroup w id valueId target receiver value source ref facts getter).usage = {
      occurring := id :: (temporaries (receiver.exprs false) ++
        valueId :: (temporaries (value.exprs false) ++ [id, id, valueId]))
      stored := id :: (stores receiver.stmts ++ valueId :: stores value.stmts)
      reads := fun assigned => receiver.reads assigned ++ (value.reads (assigned ++ [id]) ++
        [⟨id, assigned ++ [id, valueId]⟩, ⟨id, assigned ++ [id, valueId]⟩,
          ⟨valueId, assigned ++ [id, valueId]⟩]) } := by
  simp [Stmt.usage, writeGroup, tempFor, checkStmt, Stmt.assignment, Stmt.expression, ExprForm.expr,
    Expr.temporary?, Stmt.assigned?]

theorem takes_readGroup (h : Takes n m old receiver.usage) :
    Takes n (m + 1) old (readGroup w ⟨m⟩ e receiver ref facts getter).usage := by
  rw [usage_readGroup]
  refine h.spill (by simp [Expr.usage]) (by simp [Expr.usage]) (by simp [Expr.usage])
    fun assigned r hr => ?_
  rcases List.mem_append.mp hr with hr | hr
  · exact Or.inr ⟨assigned, hr⟩
  · refine Or.inl ?_
    simp_all [Read.Defined]

theorem takes_writeGroup (h : Takes n m old (receiver.usage.append value.usage)) :
    Takes n (m + 2) old
      (writeGroup w ⟨m⟩ ⟨m + 1⟩ target receiver value source ref facts getter).usage := by
  -- The temporary of the receiver comes first, then that of the value.
  have hfirst : Takes n (m + 1) old {
      occurring := ⟨m⟩ :: (temporaries (receiver.exprs false) ++ (temporaries (value.exprs false) ++
        [⟨m⟩, ⟨m⟩]))
      stored := ⟨m⟩ :: (stores receiver.stmts ++ stores value.stmts)
      reads := fun assigned => receiver.reads assigned ++ value.reads assigned } := by
    refine h.spill ?_ ?_ ?_ fun assigned r hr => Or.inr ⟨assigned, hr⟩
    · simp [Usage.append, Expr.usage]
    · simp [Usage.append, Expr.usage]
    · simp [Usage.append, Expr.usage]
  rw [usage_writeGroup]
  refine hfirst.spill (by simp) (by simp) (by simp; omega) fun assigned r hr => ?_
  rcases List.mem_append.mp hr with hr | hr
  · exact Or.inr ⟨assigned, List.mem_append_left _ hr⟩
  · rcases List.mem_append.mp hr with hr | hr
    · exact Or.inr ⟨assigned ++ [⟨m⟩], List.mem_append_right _ hr⟩
    · refine Or.inl ?_
      simp only [List.mem_cons, List.not_mem_nil, or_false] at hr
      rcases hr with rfl | rfl | rfl <;> simp [Read.Defined]

end

/-! ## Instrumentation step by step -/

/-- Edited code takes the temporaries from the one state up to the other. -/
def takes : EditRelation State where
  expr e s e' s' := e'.temporary? = e.temporary? ∧ Takes s.tempCount s'.tempCount e.usage e'.usage
  walked e s e' s' := e'.temporary? = e.temporary? ∧ Takes s.tempCount s'.tempCount e.usage e'.usage
  option e s e' s' := Takes s.tempCount s'.tempCount (optionUsage e) (optionUsage e')
  exprs es s es' s' := Takes s.tempCount s'.tempCount (exprsUsage es) (exprsUsage es')
  stmt st s st' s' := Takes s.tempCount s'.tempCount st.usage st'.usage
  labeled st s st' s' := Takes s.tempCount s'.tempCount (labeledUsage st) (labeledUsage st')
  stmts ss s ss' s' := Takes s.tempCount s'.tempCount (stmtsUsage ss) (stmtsUsage ss')
  catchers cs s cs' s' := Takes s.tempCount s'.tempCount (catchersUsage cs) (catchersUsage cs')
  last b s b' s' := Takes s.tempCount s'.tempCount (lastUsage b) (lastUsage b')
  block b s b' s' := Takes s.tempCount s'.tempCount b.usage b'.usage

/-- An assignment assigns to its target if that is a temporary, and then it does not read it. -/
theorem takes_assignment {n m n' : Nat} {t t' v v' : Expr} {source : Option SourceContext}
    (htemp : t'.temporary? = t.temporary?) (ht : Takes n m t.usage t'.usage)
    (hv : Takes m n' v.usage v'.usage) :
    Takes n n' (Stmt.usage ⟨.assignment t v, source⟩) (Stmt.usage ⟨.assignment t' v', source⟩) := by
  have htarget : ∀ id ∈ t.temporary?.toList, id ∈ (t.usage.append v.usage).occurring := by
    intro id hid
    refine List.mem_append_left _ ?_
    obtain ⟨form, type, targetSource⟩ := t
    simp only [Expr.usage, Expr.exprs, temporaries_cons]
    exact List.mem_append_left _ hid
  refine ((ht.append hv).store htarget).of_reads ?_ ?_ ?_ ?_ fun assigned r hr => ⟨assigned, ?_⟩
  · simp [Stmt.usage, Usage.append, Expr.usage]
  · simp [Stmt.usage, Usage.append, Expr.usage, Stmt.assigned?]
  · simp [Stmt.usage, Usage.append, Expr.usage]
  · simp [Stmt.usage, Usage.append, Expr.usage, Stmt.assigned?, htemp]
  · simp only [Stmt.usage, Stmt.reads, StmtForm.reads] at hr
    split at hr
    · exact List.mem_append_right _ hr
    · exact hr

theorem Takes.of_noting {u : Universe} {ref : MemberRef} {s : State} {n' : Nat} {old new : Usage}
    (h : Takes (s.noting u ref).tempCount n' old new) : Takes s.tempCount n' old new := by
  rwa [State.tempCount_noting] at h

theorem usage_member (receiver : Option Expr) (ref : MemberRef) (type : Option TypeRef)
    (source : Option SourceContext) :
    Expr.usage ⟨.member receiver ref, type, source⟩ = optionUsage receiver := by
  simp [Expr.usage, optionUsage, Expr.temporary?]

theorem takes_closed (u : Universe) (w : WellKnown) : takes.Closed (editor u w) := by
  constructor
  case expr => exact fun h => h
  case member =>
    intro receiver ref type source edit h
    refine editMember_yields h (fun s r s' hr _ => ?_) (fun s r s' facts getter hr _ _ => ?_)
    · refine ⟨rfl, ?_⟩
      rw [usage_member, usage_member]
      exact hr.of_noting
    · refine ⟨rfl, ?_⟩
      rw [usage_member]
      exact takes_readGroup hr.of_noting
  case call =>
    intro callee arguments type source walk h s
    obtain ⟨_, s', run, callee', s₁, arguments', hc, ha, rfl⟩ := h s
    refine ⟨_, s', run, rfl, ?_⟩
    simpa [Expr.usage, exprsUsage, Usage.append, Expr.temporary?] using hc.2.append ha
  case assignMember =>
    intro receiver ref type targetSource source value editTarget editValue editReceiver ht hv hr
    refine editAssignment_yields ht hv hr (fun s t s₁ v s' _ ht hv => ?_)
      (fun s r s₁ v s' hr hv _ _ => ?_) (fun s r s₁ v s' facts getter hr hv _ _ => ?_)
    · exact takes_assignment ht.1 ht.2.of_noting hv.2
    · refine takes_assignment rfl ?_ hv.2
      rw [usage_member, usage_member]
      exact hr.of_noting
    · refine takes_writeGroup ?_
      simpa [Stmt.usage, optionUsage, Expr.usage, Usage.append, Expr.temporary?,
        Stmt.assigned?] using hr.of_noting.append hv.2
  case assign =>
    intro target value source editTarget editValue hm ht hv
    rw [show (editor u w).assignment = editAssignment u w from rfl, editAssignment_walk hm]
    exact AssignmentParts.walk_yields ht hv fun s t s₁ v s' ht hv =>
      takes_assignment ht.1 ht.2 hv.2
  case leaf =>
    intro form type source s h
    refine ⟨rfl, ?_⟩
    cases form with
    | literal | identifier | thisRef | baseRef | setterValue | typeExpr | typeOf | snippet
    | temporary | missing => exact .same _ rfl (by simp [Expr.usage, Expr.temporary?])
    | _ => cases h
  case qualified | cast | constructDelegate | addressOf =>
    intros
    rename_i h
    refine ⟨rfl, ?_⟩
    simpa [Expr.usage, Expr.temporary?] using h.2
  case assignment | construct | blockExpr =>
    intros
    rename_i h
    refine ⟨rfl, ?_⟩
    simpa [takes, Expr.usage, Stmt.usage, exprsUsage, Block.usage, Expr.temporary?] using h
  case binary =>
    intros
    rename_i h₁ h₂
    refine ⟨rfl, ?_⟩
    simpa [Expr.usage, Usage.append, Expr.temporary?] using h₁.2.append h₂.2
  case indexer | constructArray =>
    intros
    rename_i h₁ h₂
    refine ⟨rfl, ?_⟩
    simpa [Expr.usage, exprsUsage, Usage.append, Expr.temporary?] using h₁.2.append h₂
  case optionNone => exact .same _ rfl (by simp [optionUsage])
  case optionSome => exact fun h => h.2
  case exprsCons =>
    intros
    rename_i h₁ h₂
    simpa [takes, Expr.usage, exprsUsage, Usage.append] using h₁.2.append h₂
  case attachEvent | removeEvent =>
    intros
    rename_i h₁ h₂
    simpa [takes, Stmt.usage, Expr.usage, Usage.append, Stmt.assigned?] using h₁.2.append h₂.2
  case branch =>
    intros
    rename_i h₁ h₂ h₃
    simpa [takes, Stmt.usage, Expr.usage, Block.usage, Usage.append, Stmt.assigned?] using
      (h₁.2.append h₂).append h₃
  case expression =>
    intros
    rename_i h
    simpa [takes, Stmt.usage, Expr.usage, Stmt.assigned?] using h.2
  case labeledStmt | ret | raise | declaration | blockStmt =>
    intros
    rename_i h
    simpa [takes, Stmt.usage, labeledUsage, optionUsage, Block.usage, Stmt.assigned?] using h
  case loop =>
    intros
    rename_i h₁ h₂ h₃ h₄
    simpa [takes, Stmt.usage, stmtsUsage, optionUsage, Block.usage, Usage.append,
      Stmt.assigned?] using ((h₁.append h₂).append h₃).append h₄
  case protect =>
    intros
    rename_i h₁ h₂ h₃
    simpa [takes, Stmt.usage, Block.usage, catchersUsage, lastUsage, Usage.append,
      Stmt.assigned?] using (h₁.append h₂).append h₃
  case goto | snippet => exact .same _ rfl (by simp [Stmt.usage])
  case labeledSome | lastSome | block => exact fun h => h
  case stmtsCons =>
    intro st ss s st' s₁ ss' s' h₁ h₂
    refine (Takes.append h₁ h₂).of_reads ?_ ?_ ?_ ?_ fun assigned r hr => ?_
    · simp [Usage.append, Stmt.usage, stmtsUsage]
    · simp [Usage.append, Stmt.usage, stmtsUsage]
    · simp [Usage.append, Stmt.usage, stmtsUsage]
    · simp [Usage.append, Stmt.usage, stmtsUsage]
    · rcases List.mem_append.mp hr with hr | hr
      · exact ⟨assigned, List.mem_append_left _ hr⟩
      · exact ⟨_, List.mem_append_right _ hr⟩
  case catchersCons =>
    intros
    rename_i h₁ h₂
    simpa [takes, Block.usage, catchersUsage, Usage.append] using h₁.append h₂
  case exprsNil => exact .same _ rfl (by simp [exprsUsage])
  case labeledNone => exact .same _ rfl (by simp [labeledUsage])
  case stmtsNil => exact .same _ rfl (by simp [stmtsUsage])
  case catchersNil => exact .same _ rfl (by simp [catchersUsage])
  case lastNone => exact .same _ rfl (by simp [lastUsage])

/-! ## Bodies -/

/-- Of the temporaries from `n` up to `n'`, each is assigned once in `edited` and read behind that.
    No later one occurs, and the ones before `n` occur and are assigned as in `block`. -/
structure FreshFrom (n n' : Nat) (block edited : Block) : Prop where
  once : ∀ id : LocalId, n ≤ id.index → id.index < n' → (stores edited.stmts).count id = 1
  defined : ∀ r ∈ edited.reads [], n ≤ r.id.index → r.Defined
  below : ∀ id ∈ temporaries (edited.exprs false), id.index < n'
  occurring : (temporaries (edited.exprs false)).filter (·.index < n) =
    temporaries (block.exprs false)
  stored : (stores edited.stmts).filter (·.index < n) = stores block.stmts

theorem Takes.freshFrom {n n' : Nat} {block edited : Block}
    (h : Takes n n' block.usage edited.usage)
    (hb : ∀ id ∈ temporaries (block.exprs false), id.index < n) :
    FreshFrom n n' block edited := by
  have hle := h.grows
  have hstored : ∀ id ∈ stores block.stmts, id.index < n := fun id hid => hb id (h.assigned id hid)
  have keep : ∀ ids : List LocalId, (∀ id ∈ ids, id.index < n) →
      ids.filter (·.index < n) = ids := by
    intro ids hids
    exact List.filter_eq_self.mpr (by simpa using hids)
  refine ⟨fun id hn hn' => ?_, fun r hr hn => ?_, fun id hid => ?_, ?_, ?_⟩
  · have honce : (stores edited.stmts).count id = _ := h.once id
    have hnot : id ∉ block.usage.stored := fun hid => by
      have hlt := hstored id hid
      omega
    rw [honce, List.count_eq_zero_of_not_mem hnot, if_pos ⟨hn, hn'⟩]
  · rcases h.defined [] r hr with hr | hr
    · exact hr
    · have hlt := hb _ hr
      omega
  · rcases h.within id hid with hid | hid
    · have hlt := hb id hid
      omega
    · exact hid.2
  · rw [← keep _ hb]
    exact h.occurring n (Nat.le_refl n)
  · rw [← keep _ hstored]
    exact h.stored n (Nat.le_refl n)

/-- Instrumentation takes one fresh temporary for each guarded read and two for each guarded write,
    counts each access once, and leaves a body without such accesses alone. -/
theorem editBody_freshFrom (w : WellKnown) (u : Universe) (method : MemberRef) (body : Body)
    (instrumented : Nat)
    (h : ∀ id ∈ temporaries (body.block.exprs false), id.index < body.tempCount) :
    let edited := editBody w u method body instrumented
    let reads := guardedReads u body.block.accesses
    let writes := guardedWrites u body.block.accesses
    edited.body.tempCount = body.tempCount + reads + 2 * writes ∧
    FreshFrom body.tempCount edited.body.tempCount body.block edited.body.block ∧
    (edited.failure = none → edited.state = instrumented + (reads + writes)) ∧
    (reads = 0 → writes = 0 → edited.body = body) := by
  intro edited reads writes
  have htally := (tally_closed u w).editBlock body.block { tempCount := body.tempCount }
  have htakes := (takes_closed u w).editBlock body.block { tempCount := body.tempCount }
  have hsame := (untouched_closed u w).editBlock body.block { tempCount := body.tempCount }
  have htemps : edited.body.tempCount = body.tempCount + reads + 2 * writes := htally.temps
  refine ⟨htemps, htakes.freshFrom h, fun hfailure => ?_, fun hr hw => ?_⟩
  · have hstate : edited.state = if edited.failure.isSome then instrumented
        else instrumented + _ := rfl
    have hcount : _ = 0 + reads + writes := htally.accesses
    rw [hstate, hfailure, hcount, Nat.zero_add]
    rfl
  · have hblock : edited.body.block = body.block := hsame.2 (by
      have hcount : _ = 0 + reads + writes := htally.accesses
      rw [hcount, hr, hw])
    have htempCount : edited.body.tempCount = body.tempCount := by omega
    show Body.mk edited.body.block edited.body.tempCount = body
    rw [hblock, htempCount]

/-- `$t0 = this; $t0.coins = this.coins` -/
def restack : Body where
  block := { statements := [
    .assignment (ExprForm.temporary ⟨0⟩).expr Wallet.self,
    .assignment (Wallet.coinsOf (ExprForm.temporary ⟨0⟩).expr) (Wallet.coinsOf Wallet.self)] }
  tempCount := 1

/-- A body that has a temporary gets three more. -/
theorem editBody_freshFrom_restack :
    (∀ id ∈ temporaries (restack.block.exprs false), id.index < restack.tempCount) ∧
    guardedReads Wallet.types restack.block.accesses = 1 ∧
    guardedWrites Wallet.types restack.block.accesses = 1 ∧
    (editBody Wallet.checks Wallet.types Wallet.spare restack 0).state = 2 ∧
    FreshFrom 1 4 restack.block
      (editBody Wallet.checks Wallet.types Wallet.spare restack 0).body.block :=
  ⟨by decide, by decide, by decide, by decide,
    (editBody_freshFrom Wallet.checks Wallet.types Wallet.spare restack 0 (by decide)).2.1⟩

end MiddleEnd.Guard
