/-
  How many accesses instrumentation guards. A read and a write are guardable if they have a
  receiver and the field sits behind a guard; writes into value types are not. Instrumentation
  counts one access and takes one temporary for each such read, and counts one and takes two for
  each such write (`tally_closed`). Code that adds nothing to the count is as it was
  (`untouched_closed`).
-/
import MiddleEnd.Proofs.Guard.Coverage

namespace MiddleEnd

/-- The access is the target of an assignment. -/
def Site.isTarget : Site → Bool
  | .assigned _ _ => true
  | .inner | .whole _ => false

namespace Guard

/-- The access reads a guarded field. -/
def IsGuardedRead (u : Universe) (a : Access) : Prop :=
  a.site.isTarget = false ∧ ∃ getter, GuardedBy u a.ref getter

/-- The access writes a guarded field of an object that others may see. -/
def IsGuardedWrite (u : Universe) (a : Access) : Prop :=
  a.site.isTarget = true ∧ (∃ getter, GuardedBy u a.ref getter) ∧ ¬ InValueType u a.ref

theorem guardedBy_iff {u : Universe} {ref getter : MemberRef} :
    GuardedBy u ref getter ↔ readGetter? u ref = some getter := by
  constructor
  · exact readGetter?_of_guardedBy
  · intro h
    obtain ⟨facts, hf, hg⟩ := Option.bind_eq_some_iff.mp h
    obtain ⟨member, field, owner, hm, hfield, ho⟩ := field_of_facts? hf
    rw [facts?_of_field hm hfield ho, Option.some_inj] at hf
    rw [← hf, FieldFacts.readGuard] at hg
    split at hg
    · cases hg
    · rename_i hplain
      obtain ⟨contract, hc, hgetter⟩ := Option.bind_eq_some_iff.mp hg
      have hstatic : field.flags.isStatic = false := by simp_all
      have hframe : contract.field ≠ some ref := by simp_all
      exact ⟨member, field, owner, contract, hm, hfield, hstatic, ho, hc, hgetter, hframe⟩

theorem exists_guardedBy_iff {u : Universe} {ref : MemberRef} :
    (∃ getter, GuardedBy u ref getter) ↔ (readGetter? u ref).isSome := by
  simp only [guardedBy_iff, Option.isSome_iff_exists]

/-- A write passes a guard if a read does, and the field is in no value type. -/
theorem writeGetter?_isSome_iff {u : Universe} {ref : MemberRef} :
    (writeGetter? u ref).isSome ↔ (∃ getter, GuardedBy u ref getter) ∧ ¬ InValueType u ref := by
  constructor
  · intro h
    obtain ⟨getter, h⟩ := Option.isSome_iff_exists.mp h
    obtain ⟨facts, hf, hw⟩ := Option.bind_eq_some_iff.mp h
    have hr : readGetter? u ref = some getter := by
      rw [readGetter?, hf, Option.bind_some, readGuard_of_writeGuard hw]
    refine ⟨⟨getter, guardedBy_iff.mpr hr⟩, ?_⟩
    rintro ⟨member, owner, hm, ho, hvalue⟩
    obtain ⟨member', field, owner', hm', hfield, ho'⟩ := field_of_facts? hf
    rw [hm, Except.ok.injEq] at hm'
    subst hm'
    rw [facts?_of_field hm hfield ho, Option.some_inj] at hf
    rw [← hf, FieldFacts.writeGuard, hvalue] at hw
    cases hw
  · rintro ⟨⟨getter, hg⟩, hn⟩
    rcases hw : writeGetter? u ref with _ | found
    · exact absurd (inValueType_of_guardedBy hg hw) hn
    · rfl

theorem isGuardedRead_iff {u : Universe} {a : Access} :
    IsGuardedRead u a ↔ a.site.isTarget = false ∧ (readGetter? u a.ref).isSome := by
  rw [IsGuardedRead, exists_guardedBy_iff]

theorem isGuardedWrite_iff {u : Universe} {a : Access} :
    IsGuardedWrite u a ↔ a.site.isTarget = true ∧ (writeGetter? u a.ref).isSome := by
  rw [IsGuardedWrite, writeGetter?_isSome_iff]

instance (u : Universe) (a : Access) : Decidable (IsGuardedRead u a) :=
  decidable_of_iff' _ isGuardedRead_iff

instance (u : Universe) (a : Access) : Decidable (IsGuardedWrite u a) :=
  decidable_of_iff' _ isGuardedWrite_iff

/-! ## Counts -/

def guardedReads (u : Universe) (as : List Access) : Nat :=
  as.countP fun a => IsGuardedRead u a

def guardedWrites (u : Universe) (as : List Access) : Nat :=
  as.countP fun a => IsGuardedWrite u a

section

variable {u : Universe}

@[simp]
theorem guardedReads_nil : guardedReads u [] = 0 := rfl

@[simp]
theorem guardedWrites_nil : guardedWrites u [] = 0 := rfl

@[simp]
theorem guardedReads_append (as bs : List Access) :
    guardedReads u (as ++ bs) = guardedReads u as + guardedReads u bs :=
  List.countP_append

@[simp]
theorem guardedWrites_append (as bs : List Access) :
    guardedWrites u (as ++ bs) = guardedWrites u as + guardedWrites u bs :=
  List.countP_append

end

/-- From `s` to `s'`, each guarded read was counted once and took one temporary, and each guarded
    write was counted once and took two. -/
structure Tallies (u : Universe) (s s' : State) (as : List Access) : Prop where
  temps : s'.tempCount = s.tempCount + guardedReads u as + 2 * guardedWrites u as
  accesses : s'.instrumented = s.instrumented + guardedReads u as + guardedWrites u as

namespace Tallies

variable {u : Universe} {s m s' : State} {a : Access} {as bs : List Access}

theorem nil : Tallies u s s [] := ⟨rfl, rfl⟩

theorem append (h₁ : Tallies u s m as) (h₂ : Tallies u m s' bs) : Tallies u s s' (as ++ bs) := by
  obtain ⟨ht₁, ha₁⟩ := h₁
  obtain ⟨ht₂, ha₂⟩ := h₂
  constructor
  · rw [guardedReads_append, guardedWrites_append]
    omega
  · rw [guardedReads_append, guardedWrites_append]
    omega

/-- An access that passes no guard counts for nothing. -/
theorem cons_iff (hr : ¬ IsGuardedRead u a) (hw : ¬ IsGuardedWrite u a) :
    Tallies u s s' (a :: as) ↔ Tallies u s s' as := by
  have hreads : guardedReads u (a :: as) = guardedReads u as :=
    List.countP_cons_of_neg (by simpa using hr)
  have hwrites : guardedWrites u (a :: as) = guardedWrites u as :=
    List.countP_cons_of_neg (by simpa using hw)
  constructor
  · rintro ⟨ht, ha⟩
    rw [hreads, hwrites] at ht ha
    exact ⟨ht, ha⟩
  · rintro ⟨ht, ha⟩
    rw [← hreads, ← hwrites] at ht ha
    exact ⟨ht, ha⟩

theorem read (h : Tallies u s s' as) (hr : IsGuardedRead u a) :
    Tallies u s (s'.afterRead a.ref) (a :: as) := by
  obtain ⟨ht, ha⟩ := h
  have hw : ¬ IsGuardedWrite u a := fun hw => by simpa [hr.1] using hw.1
  have hreads : guardedReads u (a :: as) = guardedReads u as + 1 :=
    List.countP_cons_of_pos (by simpa using hr)
  have hwrites : guardedWrites u (a :: as) = guardedWrites u as :=
    List.countP_cons_of_neg (by simpa using hw)
  constructor
  · rw [hreads, hwrites]
    simp only [State.afterRead]
    omega
  · rw [hreads, hwrites]
    simp only [State.afterRead]
    omega

theorem write (h : Tallies u s s' as) (hw : IsGuardedWrite u a) :
    Tallies u s (s'.afterWrite a.ref) (a :: as) := by
  obtain ⟨ht, ha⟩ := h
  have hr : ¬ IsGuardedRead u a := fun hr => by simpa [hw.1] using hr.1
  have hreads : guardedReads u (a :: as) = guardedReads u as :=
    List.countP_cons_of_neg (by simpa using hr)
  have hwrites : guardedWrites u (a :: as) = guardedWrites u as + 1 :=
    List.countP_cons_of_pos (by simpa using hw)
  constructor
  · rw [hreads, hwrites]
    simp only [State.afterWrite]
    omega
  · rw [hreads, hwrites]
    simp only [State.afterWrite]
    omega

end Tallies

@[simp]
theorem State.instrumented_noting (s : State) (u : Universe) (ref : MemberRef) :
    (s.noting u ref).instrumented = s.instrumented := by
  unfold State.noting
  split <;> rfl

/-- Looking a member up takes nothing. -/
theorem Tallies.of_noting {u : Universe} {s s' : State} {ref : MemberRef} {as : List Access}
    (h : Tallies u (s.noting u ref) s' as) : Tallies u s s' as := by
  obtain ⟨ht, ha⟩ := h
  rw [State.tempCount_noting] at ht
  rw [State.instrumented_noting] at ha
  exact ⟨ht, ha⟩

/-- The site of an expression matters only if the expression is a member. -/
theorem accesses_of_ne_member {e : Expr} (h : ∀ receiver ref, e.form ≠ .member receiver ref)
    (site site' : Site) : e.accesses site = e.accesses site' := by
  obtain ⟨form, type, source⟩ := e
  cases form with
  | member receiver ref => exact absurd rfl (h receiver ref)
  | _ => rfl

/-- The state behind edited code tells how many guarded accesses there were. -/
def tally (u : Universe) : EditRelation State where
  expr e s _ s' := ∀ site, site.isTarget = false → Tallies u s s' (e.accesses site)
  walked e s _ s' := ∀ site, site.isTarget = false → Tallies u s s' (e.accesses site)
  option e s e' s' := e'.isSome = e.isSome ∧ Tallies u s s' (optionAccesses e)
  exprs es s _ s' := Tallies u s s' (exprsAccesses es)
  stmt st s _ s' := ∀ context, Tallies u s s' (st.accesses context)
  labeled st s _ s' := Tallies u s s' (labeledAccesses st)
  stmts ss s _ s' :=
    Tallies u s s' (looseAccesses ss) ∧ ∀ before, Tallies u s s' (stmtsAccesses before ss)
  catchers cs s _ s' := Tallies u s s' (catchersAccesses cs)
  last b s _ s' := Tallies u s s' (lastAccesses b)
  block b s _ s' := Tallies u s s' b.accesses

theorem tally_closed (u : Universe) (w : WellKnown) : (tally u).Closed (editor u w) := by
  constructor
  case expr => exact fun h => h
  case member =>
    intro receiver ref type source edit h
    refine editMember_yields h (fun s r s' hr hn site hs => ?_)
      (fun s r s' facts getter hr hf hg site hs => ?_)
    · obtain ⟨hsome, hr⟩ := hr
      rcases receiver with _ | receiver
      · exact hr.of_noting
      · have hn : readGetter? u ref = none := by
          refine hn.resolve_right ?_
          rintro rfl
          cases hsome
        refine (Tallies.cons_iff ?_ ?_).mpr hr.of_noting
        · simp [isGuardedRead_iff, hn]
        · simp [isGuardedWrite_iff, hs]
    · obtain ⟨hsome, hr⟩ := hr
      obtain ⟨receiver, rfl⟩ : ∃ e, receiver = some e := by
        simpa [Option.isSome_iff_exists] using hsome
      have hget : readGetter? u ref = some getter := by rw [readGetter?, hf]; exact hg
      have hguarded : IsGuardedRead u ⟨site, receiver, ref⟩ := by
        simp [isGuardedRead_iff, hs, hget]
      exact hr.of_noting.read hguarded
  case call =>
    intro callee arguments type source walk h s
    obtain ⟨_, s', run, callee', s₁, arguments', hc, ha, rfl⟩ := h s
    exact ⟨_, s', run, fun site _ => (hc .inner rfl).append ha⟩
  case assignMember =>
    intro receiver ref type targetSource source value editTarget editValue editReceiver ht hv hr
    refine editAssignment_yields ht hv hr (fun s t s₁ v s' hf ht hv context => ?_)
      (fun s r s₁ v s' hr hv _ hg context => ?_)
      (fun s r s₁ v s' facts getter hr hv hf hg context => ?_)
    · refine Tallies.append ?_ (hv .inner rfl)
      have ht := (ht .inner rfl).of_noting
      rcases receiver with _ | receiver
      · exact ht
      · have hr : readGetter? u ref = none := by rw [readGetter?, hf]; rfl
        have hw : writeGetter? u ref = none := by rw [writeGetter?, hf]; rfl
        refine (Tallies.cons_iff ?_ ?_).mpr ((Tallies.cons_iff ?_ ?_).mp ht)
        · simp [isGuardedRead_iff, hr]
        · simp [isGuardedWrite_iff, hw]
        · simp [isGuardedRead_iff, hr]
        · simp [isGuardedWrite_iff, hw]
    · obtain ⟨hsome, hr⟩ := hr
      refine Tallies.append ?_ (hv .inner rfl)
      rcases receiver with _ | receiver
      · exact hr.of_noting
      · have hg : writeGetter? u ref = none := by
          refine hg.resolve_right ?_
          rintro rfl
          cases hsome
        refine (Tallies.cons_iff ?_ ?_).mpr hr.of_noting
        · simp [isGuardedRead_iff, Site.isTarget]
        · simp [isGuardedWrite_iff, hg]
    · obtain ⟨hsome, hr⟩ := hr
      obtain ⟨receiver, rfl⟩ : ∃ e, receiver = some e := by
        simpa [Option.isSome_iff_exists] using hsome
      have hget : writeGetter? u ref = some getter := by rw [writeGetter?, hf]; exact hg
      have hguarded : IsGuardedWrite u ⟨.assigned context value, receiver, ref⟩ := by
        simp [isGuardedWrite_iff, Site.isTarget, hget]
      exact (hr.of_noting.append (hv .inner rfl)).write hguarded
  case assign =>
    intro target value source editTarget editValue hm ht hv
    rw [show (editor u w).assignment = editAssignment u w from rfl, editAssignment_walk hm]
    refine AssignmentParts.walk_yields ht hv fun s t s₁ v s' ht hv context => ?_
    rw [Stmt.accesses, StmtForm.accesses, accesses_of_ne_member hm _ .inner]
    exact (ht .inner rfl).append (hv .inner rfl)
  case leaf =>
    intro form type source s h site _
    cases form with
    | literal | identifier | thisRef | baseRef | setterValue | typeExpr | typeOf | snippet
    | temporary | missing => exact .nil
    | _ => cases h
  case qualified | cast | constructDelegate | addressOf => exact fun h _ _ => h .inner rfl
  case construct | blockExpr => exact fun h _ _ => h
  case assignment => exact fun h _ _ => h .alone
  case binary => exact fun h₁ h₂ _ _ => (h₁ .inner rfl).append (h₂ .inner rfl)
  case indexer | constructArray => exact fun h₁ h₂ _ _ => (h₁ .inner rfl).append h₂
  case optionNone => exact ⟨rfl, .nil⟩
  case optionSome => exact fun h => ⟨rfl, h .inner rfl⟩
  case exprsCons => exact fun h₁ h₂ => (h₁ .inner rfl).append h₂
  case attachEvent | removeEvent => exact fun h₁ h₂ _ => (h₁ .inner rfl).append (h₂ .inner rfl)
  case branch => exact fun h₁ h₂ h₃ _ => ((h₁ .inner rfl).append h₂).append h₃
  case expression => exact fun h context => h (.whole context) rfl
  case labeledStmt | blockStmt => exact fun h _ => h
  case loop => exact fun h₁ h₂ h₃ h₄ _ => ((h₁.1.append h₂.2).append h₃.1).append h₄
  case ret | raise | declaration => exact fun h _ => h.2
  case protect => exact fun h₁ h₂ h₃ _ => (h₁.append h₂).append h₃
  case goto | snippet => exact fun _ => .nil
  case labeledSome => exact fun h => h .alone
  case stmtsNil => exact ⟨.nil, fun _ => .nil⟩
  case stmtsCons =>
    intro st ss s st' s₁ ss' s' h₁ h₂
    exact ⟨(h₁ .alone).append h₂.1, fun before => (h₁ _).append (h₂.2 _)⟩
  case catchersCons => exact fun h₁ h₂ => h₁.append h₂
  case lastSome => exact fun h => h
  case block => exact fun h => h.2 []
  case exprsNil | labeledNone | catchersNil | lastNone => exact .nil

/-! ## Code without guarded accesses -/

/-- The count never falls, and code that adds nothing to it is left alone. -/
def Untouched {α : Type} (a : α) (s : State) (a' : α) (s' : State) : Prop :=
  s.instrumented ≤ s'.instrumented ∧ (s'.instrumented = s.instrumented → a' = a)

namespace Untouched

variable {α β γ : Type} {s m s' : State} {a a' : α} {b b' : β} {c c' : γ}

theorem refl (a : α) (s : State) : Untouched a s a s := ⟨Nat.le_refl _, fun _ => rfl⟩

theorem of_part (h : Untouched a s a' s') (make : a' = a → b' = b) : Untouched b s b' s' :=
  ⟨h.1, fun heq => make (h.2 heq)⟩

/-- If two parts together add nothing, neither of them does. -/
theorem of_parts (h₁ : Untouched a s a' m) (h₂ : Untouched b m b' s')
    (make : a' = a → b' = b → c' = c) : Untouched c s c' s' := by
  obtain ⟨hle₁, heq₁⟩ := h₁
  obtain ⟨hle₂, heq₂⟩ := h₂
  refine ⟨by omega, fun heq => ?_⟩
  have ha : a' = a := heq₁ (by omega)
  have hb : b' = b := heq₂ (by omega)
  exact make ha hb

theorem pair (h₁ : Untouched a s a' m) (h₂ : Untouched b m b' s') :
    Untouched (a, b) s (a', b') s' :=
  h₁.of_parts h₂ fun ha hb => by rw [ha, hb]

theorem of_noting {u : Universe} {ref : MemberRef} (h : Untouched a (s.noting u ref) a' s') :
    Untouched a s a' s' := by
  rw [Untouched, State.instrumented_noting] at h
  exact h

/-- What was counted need not be as it was. -/
theorem counted (h : Untouched a s a' m) (hs : s'.instrumented = m.instrumented + 1) :
    Untouched b s b' s' := by
  have hle := h.1
  exact ⟨by omega, fun heq => by omega⟩

end Untouched

def untouched : EditRelation State where
  expr := Untouched
  walked := Untouched
  option := Untouched
  exprs := Untouched
  stmt := Untouched
  labeled := Untouched
  stmts := Untouched
  catchers := Untouched
  last := Untouched
  block := Untouched

theorem untouched_closed (u : Universe) (w : WellKnown) : untouched.Closed (editor u w) := by
  constructor
  case expr => exact fun h => h
  case member =>
    intro receiver ref type source edit h
    refine editMember_yields h (fun s r s' hr _ => ?_) (fun s r s' facts getter hr _ _ => ?_)
    · exact hr.of_noting.of_part (by rintro rfl; rfl)
    · exact hr.of_noting.counted rfl
  case call =>
    intro callee arguments type source walk h s
    obtain ⟨_, s', run, callee', s₁, arguments', hc, ha, rfl⟩ := h s
    exact ⟨_, s', run, hc.of_parts ha (by rintro rfl rfl; rfl)⟩
  case assignMember =>
    intro receiver ref type targetSource source value editTarget editValue editReceiver ht hv hr
    refine editAssignment_yields ht hv hr (fun s t s₁ v s' _ ht hv => ?_)
      (fun s r s₁ v s' hr hv _ _ => ?_) (fun s r s₁ v s' facts getter hr hv _ _ => ?_)
    · exact ht.of_noting.of_parts hv (by rintro rfl rfl; rfl)
    · exact hr.of_noting.of_parts hv (by rintro rfl rfl; rfl)
    · exact (hr.of_noting.pair hv).counted rfl
  case assign =>
    intro target value source editTarget editValue hm ht hv
    rw [show (editor u w).assignment = editAssignment u w from rfl, editAssignment_walk hm]
    exact AssignmentParts.walk_yields ht hv fun s t s₁ v s' ht hv =>
      ht.of_parts hv (by rintro rfl rfl; rfl)
  case branch | protect =>
    intros
    rename_i h₁ h₂ h₃
    exact (h₁.pair h₂).of_parts h₃ (by rintro ⟨⟩ rfl; rfl)
  case loop =>
    intros
    rename_i h₁ h₂ h₃ h₄
    exact (h₁.pair h₂).of_parts (h₃.pair h₄) (by rintro ⟨⟩ ⟨⟩; rfl)
  case binary | indexer | constructArray | exprsCons | attachEvent | removeEvent | stmtsCons
    | catchersCons =>
    intros
    rename_i h₁ h₂
    exact h₁.of_parts h₂ (by rintro rfl rfl; rfl)
  case leaf => exact fun _ => .refl _ _
  case goto | snippet | optionNone | exprsNil | labeledNone | stmtsNil | catchersNil | lastNone =>
    exact .refl _ _
  -- The other forms have one part.
  all_goals
    intros
    rename_i h
    exact h.of_part (by rintro rfl; rfl)

end Guard

end MiddleEnd
