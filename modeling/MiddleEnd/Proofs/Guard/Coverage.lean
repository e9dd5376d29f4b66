/-
  No guarded field is accessed without a check. In an instrumented body, an access to a field that
  has a guard is the last statement of a group that reads or writes through a temporary, right
  behind the check of that temporary, or it writes into a value type
  (`covered_of_mem_accesses`). It does not matter whether the body used temporaries before, nor
  whether the instrumentation failed: what cannot be looked up has no guard.
-/
import MiddleEnd.Proofs.Code.Access
import MiddleEnd.Proofs.Guard.Step
import MiddleEnd.Proofs.Sample
import MiddleEnd.Proofs.Universe.Lookup

namespace MiddleEnd

/-- What contracts name as getters are methods. -/
def Universe.GettersAreMethods (u : Universe) : Prop :=
  ∀ id node contract getter, u.type id = .ok node → node.contract = some contract →
    contract.getter = some getter → u.IsMethod getter

namespace Guard

/-- The member is a field of objects, its type has a getter for the guard, and the field is not
    the one that holds the guard. -/
def GuardedBy (u : Universe) (ref getter : MemberRef) : Prop :=
  ∃ member field owner contract, u.member ref = .ok member ∧ member.field? = some field ∧
    field.flags.isStatic = false ∧ u.type member.declaringType = .ok owner ∧
    owner.contract = some contract ∧ contract.getter = some getter ∧ contract.field ≠ some ref

/-- The field is declared by a struct or an enum. -/
def InValueType (u : Universe) (ref : MemberRef) : Prop :=
  ∃ member owner, u.member ref = .ok member ∧ u.type member.declaringType = .ok owner ∧
    owner.isValueType = true

/-- The last statement of `{ temp = o; temp.getter().CheckIsReading(); temp.f }` -/
def ReadChecked (w : WellKnown) (getter : MemberRef) (a : Access) : Prop :=
  ∃ temp stored, temp.temporary?.isSome ∧ a.receiver = temp ∧
    a.site = .whole (.within
      [.assignment temp stored, checkStmt temp getter w.checkIsReading] [])

/-- The target in `{ temp = o; held = v; temp.getter().CheckIsWriting(); temp.f = held }` -/
def WriteChecked (w : WellKnown) (getter : MemberRef) (a : Access) : Prop :=
  ∃ temp stored held value, temp.temporary?.isSome ∧ held.temporary?.isSome ∧
    temp.temporary? ≠ held.temporary? ∧ a.receiver = temp ∧
    a.site = .assigned (.within
      [.assignment temp stored, .assignment held value,
       checkStmt temp getter w.checkIsWriting] []) held

/-- The access is checked if it has to be. -/
def Covered (u : Universe) (w : WellKnown) (a : Access) : Prop :=
  ∀ getter, GuardedBy u a.ref getter →
    ReadChecked w getter a ∨ WriteChecked w getter a ∨
      (∃ context value, a.site = .assigned context value) ∧ InValueType u a.ref

/-! ## Facts on fields -/

theorem readGetter?_of_guardedBy {u : Universe} {ref getter : MemberRef}
    (h : GuardedBy u ref getter) : readGetter? u ref = some getter := by
  obtain ⟨member, field, owner, contract, hm, hf, hs, ho, hc, hg, hn⟩ := h
  rw [readGetter?, facts?_of_field hm hf ho]
  simp [FieldFacts.readGuard, hs, hc, hg, hn]

/-- A guarded field whose writes are not guarded belongs to a value type. -/
theorem inValueType_of_guardedBy {u : Universe} {ref getter : MemberRef}
    (h : GuardedBy u ref getter) (hw : writeGetter? u ref = none) : InValueType u ref := by
  have hr := readGetter?_of_guardedBy h
  obtain ⟨member, field, owner, contract, hm, hf, -, ho, -⟩ := h
  rw [readGetter?, facts?_of_field hm hf ho, Option.bind_some] at hr
  rw [writeGetter?, facts?_of_field hm hf ho, Option.bind_some, FieldFacts.writeGuard, hr] at hw
  exact ⟨member, owner, hm, ho, by simpa using hw⟩

theorem readGetter?_of_isMethod {u : Universe} {ref : MemberRef} (h : u.IsMethod ref) :
    readGetter? u ref = none := by
  obtain ⟨method, h⟩ := h
  obtain ⟨member, hm, hmethod⟩ := Universe.method_eq_ok.mp h
  have hf : member.field? = none := by
    obtain ⟨name, declaringType, attributes, kind, source⟩ := member
    cases kind <;> simp_all [Member.method?, Member.field?]
  simp [readGetter?, facts?, lookupField, hm, hf, bind, Except.bind, pure, Except.pure]

theorem isMethod_of_readGuard {u : Universe} {ref getter : MemberRef} {facts : FieldFacts}
    (hu : u.GettersAreMethods) (hf : facts? u ref = some facts)
    (hg : facts.readGuard = some getter) : u.IsMethod getter := by
  obtain ⟨id, owner, contract, ho, hc, hgetter⟩ := contract_of_readGuard hf hg
  exact hu id owner contract getter ho hc hgetter

/-! ## Accesses that need no check -/

def Covers (u : Universe) (w : WellKnown) (as : List Access) : Prop := ∀ a ∈ as, Covered u w a

section

variable {u : Universe} {w : WellKnown}

@[simp]
theorem covers_nil : Covers u w [] := by simp [Covers]

@[simp]
theorem covers_append {as bs : List Access} :
    Covers u w (as ++ bs) ↔ Covers u w as ∧ Covers u w bs :=
  List.forall_mem_append

@[simp]
theorem covers_cons {a : Access} {as : List Access} :
    Covers u w (a :: as) ↔ Covered u w a ∧ Covers u w as :=
  List.forall_mem_cons

theorem covered_of_readGetter? {site : Site} {receiver : Expr} {ref : MemberRef}
    (h : readGetter? u ref = none) : Covered u w ⟨site, receiver, ref⟩ := by
  intro getter hg
  rw [readGetter?_of_guardedBy hg] at h
  cases h

theorem covers_checkStmt {id : LocalId} {value : Expr} {fallback : TypeRef}
    {getter check : MemberRef} (hg : u.IsMethod getter) (hc : u.IsMethod check)
    (context : Context) :
    Covers u w ((checkStmt (tempFor id value fallback) getter check).accesses context) := by
  have hgetter := readGetter?_of_isMethod hg
  have hcheck := readGetter?_of_isMethod hc
  simp [checkStmt, tempFor, Stmt.expression, ExprForm.expr, covered_of_readGetter? hgetter,
    covered_of_readGetter? hcheck]

/-! ## Groups -/

theorem covers_store {id : LocalId} {value : Expr} {fallback : TypeRef} (context : Context) :
    Covers u w ((Stmt.assignment (tempFor id value fallback) value).accesses context) ↔
      Covers u w (value.accesses .inner) := by
  simp [Stmt.assignment, tempFor]

theorem covers_temporary {id : LocalId} {value : Expr} {fallback : TypeRef} {site : Site} :
    Covers u w ((tempFor id value fallback).accesses site) := by
  simp [tempFor]

theorem covers_readGroup {id : LocalId} {e receiver : Expr} {ref getter : MemberRef}
    {facts : FieldFacts} (hr : Covers u w (receiver.accesses .inner))
    (hf : facts? u ref = some facts) (hg : facts.readGuard = some getter)
    (hm : u.IsMethod getter) (hc : u.IsMethod w.checkIsReading) (site : Site) :
    Covers u w ((readGroup w id e receiver ref facts getter).accesses site) := by
  let temp := tempFor id receiver (.bound facts.declaringType)
  have hread : Covered u w ⟨.whole (.within
      [.assignment temp receiver, checkStmt temp getter w.checkIsReading] []), temp, ref⟩ := by
    intro getter' hg'
    have := readGetter?_of_guardedBy hg'
    rw [readGetter?, hf, Option.bind_some, hg, Option.some_inj] at this
    subst this
    exact Or.inl ⟨temp, receiver, rfl, rfl, rfl⟩
  simp only [readGroup, Expr.accesses, ExprForm.accesses, Block.accesses, stmtsAccesses,
    covers_append, covers_checkStmt hm hc, covers_store]
  exact ⟨hr, trivial, covers_cons.mpr ⟨hread, covers_temporary⟩, covers_nil⟩

theorem covers_writeGroup {id valueId : LocalId} {target receiver value : Expr}
    {source : Option SourceContext} {ref getter : MemberRef} {facts : FieldFacts}
    (hid : id ≠ valueId) (hr : Covers u w (receiver.accesses .inner))
    (hv : Covers u w (value.accesses .inner)) (hf : facts? u ref = some facts)
    (hg : facts.readGuard = some getter) (hm : u.IsMethod getter)
    (hc : u.IsMethod w.checkIsWriting) (context : Context) :
    Covers u w ((writeGroup w id valueId target receiver value source ref facts getter).accesses
      context) := by
  let temp := tempFor id receiver (.bound facts.declaringType)
  let held := tempFor valueId value facts.type
  have hwrite : Covered u w ⟨.assigned (.within [.assignment temp receiver, .assignment held value,
      checkStmt temp getter w.checkIsWriting] []) held, temp, ref⟩ := by
    intro getter' hg'
    have := readGetter?_of_guardedBy hg'
    rw [readGetter?, hf, Option.bind_some, hg, Option.some_inj] at this
    subst this
    exact Or.inr (Or.inl ⟨temp, receiver, held, value, rfl, rfl,
      fun h => hid (Option.some.inj h), rfl, rfl⟩)
  simp only [writeGroup, Stmt.accesses, StmtForm.accesses, Block.accesses, stmtsAccesses,
    covers_append, covers_checkStmt hm hc, covers_store]
  exact ⟨hr, hv, trivial,
    covers_append.mpr ⟨covers_cons.mpr ⟨hwrite, covers_temporary⟩, covers_temporary⟩, covers_nil⟩

end

/-! ## Instrumentation step by step -/

/-- Every access in edited code is covered, wherever the code is put. -/
def coverage (u : Universe) (w : WellKnown) : EditRelation State where
  expr _ _ e' _ := ∀ site, Covers u w (e'.accesses site)
  walked _ _ e' _ := ∀ site, Covers u w (e'.accesses site)
  option _ _ e' _ := Covers u w (optionAccesses e')
  exprs _ _ es' _ := Covers u w (exprsAccesses es')
  stmt _ _ s' _ := ∀ context, Covers u w (s'.accesses context)
  labeled _ _ s' _ := Covers u w (labeledAccesses s')
  stmts _ _ ss' _ :=
    Covers u w (looseAccesses ss') ∧ ∀ before, Covers u w (stmtsAccesses before ss')
  catchers _ _ cs' _ := Covers u w (catchersAccesses cs')
  last _ _ b' _ := Covers u w (lastAccesses b')
  block _ _ b' _ := Covers u w b'.accesses

theorem coverage_closed {u : Universe} {w : WellKnown} (hu : u.GettersAreMethods)
    (hr : u.IsMethod w.checkIsReading) (hw : u.IsMethod w.checkIsWriting) :
    (coverage u w).Closed (editor u w) := by
  constructor
  case expr => exact fun h => h
  case member =>
    intro receiver ref type source edit h
    refine editMember_yields h (fun s r s' hc hn site => ?_)
      (fun s r s' facts getter hc hf hg site => ?_)
    · rcases r with _ | r
      · simp
      · have hn : readGetter? u ref = none := by simpa using hn
        simp only [Expr.accesses, ExprForm.accesses]
        exact covers_cons.mpr ⟨covered_of_readGetter? hn, hc⟩
    · exact covers_readGroup hc hf hg (isMethod_of_readGuard hu hf hg) hr site
  case call =>
    intro callee arguments type source walk h s
    obtain ⟨_, s', run, callee', s₁, arguments', hc, ha, rfl⟩ := h s
    refine ⟨_, s', run, fun site => ?_⟩
    exact covers_append.mpr ⟨hc .inner, ha⟩
  case assignMember =>
    intro receiver ref type targetSource source value editTarget editValue editReceiver ht hv hr
    refine editAssignment_yields ht hv hr (fun s t s₁ v s' hf ht hv context => ?_)
      (fun s r s₁ v s' hr hv _ hg context => ?_)
      (fun s r s₁ v s' facts getter hr hv hf hg context => ?_)
    · exact covers_append.mpr ⟨ht _, hv _⟩
    · refine covers_append.mpr ⟨?_, hv _⟩
      rcases r with _ | r
      · simp
      · have hg : writeGetter? u ref = none := by simpa using hg
        refine covers_cons.mpr ⟨fun getter hb => Or.inr (Or.inr ⟨⟨_, _, rfl⟩, ?_⟩), hr⟩
        exact inValueType_of_guardedBy hb hg
    · have hg' := readGuard_of_writeGuard hg
      have hgetter : u.IsMethod getter := isMethod_of_readGuard hu hf hg'
      exact covers_writeGroup (by simp) hr (hv _) hf hg' hgetter hw context
  case assign =>
    intro target value source editTarget editValue hm ht hv
    rw [show (editor u w).assignment = editAssignment u w from rfl, editAssignment_walk hm]
    exact AssignmentParts.walk_yields ht hv fun s t s₁ v s' ht hv context =>
      covers_append.mpr ⟨ht _, hv _⟩
  case leaf =>
    intro form type source s h
    cases form <;> simp_all [ExprForm.isLeaf, coverage]
  all_goals
    intros
    simp_all [coverage]

/-- Every access to a guarded field of an instrumented body is checked, or writes into a value
    type. The checks of a universe are methods of it (`WellKnown.isMethod_of_ofUniverse`). -/
theorem covered_of_mem_accesses {u : Universe} {w : WellKnown} (hu : u.GettersAreMethods)
    (hr : u.IsMethod w.checkIsReading) (hw : u.IsMethod w.checkIsWriting) (method : MemberRef)
    (body : Body) (instrumented : Nat) :
    ∀ a ∈ (editBody w u method body instrumented).body.block.accesses, Covered u w a :=
  (coverage_closed hu hr hw).editBlock body.block _

theorem gettersAreMethods_wallet : Wallet.types.GettersAreMethods := by
  intro id node contract getter hn hc hg
  have hnode : node = Wallet.guardNode ∨ node = Wallet.walletNode := by
    simpa [Wallet.types, Arena.toList] using Universe.mem_types_of_type hn
  rcases hnode with rfl | rfl
  · cases hc
  · cases hc
    cases hg
    exact ⟨_, rfl⟩

/-- The accesses that `copyCoins` makes to the guarded coins of two wallets. -/
theorem covered_copyCoins :
    GuardedBy Wallet.types Wallet.coins Wallet.getFrame ∧
    ((editBody Wallet.checks Wallet.types Wallet.spare Wallet.copyCoins 0).body.block.accesses.map
      (·.ref)).count Wallet.coins = 2 ∧
    ∀ a ∈ (editBody Wallet.checks Wallet.types Wallet.spare Wallet.copyCoins 0).body.block.accesses,
      Covered Wallet.types Wallet.checks a :=
  ⟨⟨_, _, _, _, rfl, rfl, rfl, rfl, rfl, rfl, by decide⟩, by decide,
    covered_of_mem_accesses gettersAreMethods_wallet ⟨_, rfl⟩ ⟨_, rfl⟩ _ _ _⟩

end Guard

end MiddleEnd
