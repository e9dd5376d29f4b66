/-
  What the collection of preconditions adds to its facts, and what it does to the values of
  temporaries. A note adds facts and leaves the values alone (`Adds`). A walk over code that is
  given the temporaries from `n` to `n'` tells the values of these only (`Follows`); the facts it
  adds may depend on their not being known before. Both are composed along the code, so the facts
  of code are put together from the facts of its parts.
-/
import MiddleEnd.Proofs.Precondition.Collection
import MiddleEnd.Proofs.Precondition.Spills

namespace MiddleEnd.Preconditions

/-- The member can be found and belongs to objects, so its receiver must not be null. -/
def Instance (u : Universe) (ref : MemberRef) : Prop :=
  ∃ member, u.member ref = .ok member ∧ member.isStatic = false

/-- The member is a method that declares the precondition. -/
def Declares (u : Universe) (ref : MemberRef) (p : Precondition) : Prop :=
  ∃ method, u.method ref = .ok method ∧ p ∈ method.preconditions

/-- The expression names such a method. -/
def NamesDeclaring (u : Universe) (e : Expr) (p : Precondition) : Prop :=
  ∃ receiver ref, e.form = .member receiver ref ∧ Declares u ref p

/-- The expression calls such a method. -/
def CallsDeclaring (u : Universe) (e : Expr) (p : Precondition) : Prop :=
  ∃ callee arguments, e.form = .call callee arguments ∧ NamesDeclaring u callee p

@[simp]
theorem namesDeclaring_member {u : Universe} {receiver : Option Expr} {ref : MemberRef}
    {type : Option TypeRef} {source : Option SourceContext} {p : Precondition} :
    NamesDeclaring u ⟨.member receiver ref, type, source⟩ p ↔ Declares u ref p := by
  constructor
  · rintro ⟨_, _, ⟨⟩, h⟩
    exact h
  · exact fun h => ⟨receiver, ref, rfl, h⟩

/-! ## Notes -/

/-- From states whose values have the property, the action adds the facts and leaves the values
    alone. -/
def Adds (known : Spills → Prop) (added : Precondition → Prop) (action : Collect Unit) : Prop :=
  ∀ c, known c.spills → (action c).2.spills = c.spills ∧
    ∀ p, p ∈ (action c).2.facts ↔ p ∈ c.facts ∨ added p

namespace Adds

variable {known : Spills → Prop} {added added' : Precondition → Prop} {first second : Collect Unit}

theorem congr (h : Adds known added first) (heq : ∀ p, added p ↔ added' p) :
    Adds known added' first := by
  intro c hc
  obtain ⟨hs, hf⟩ := h c hc
  exact ⟨hs, fun p => by rw [hf, heq]⟩

theorem seq (hf : Adds known added first) (hs : Adds known added' second) :
    Adds known (fun p => added p ∨ added' p) (first >>= fun _ => second) := by
  intro c hc
  obtain ⟨hspills, hfacts⟩ := hf c hc
  obtain ⟨hspills', hfacts'⟩ := hs (first c).2 (hspills ▸ hc)
  refine ⟨hspills'.trans hspills, fun p => ?_⟩
  rw [StateM.bind_run, hfacts', hfacts, or_assoc]

theorem pure : Adds known (fun _ => False) (Pure.pure ()) :=
  fun _ _ => ⟨rfl, fun _ => (or_false _).symm ▸ Iff.rfl⟩

end Adds

section

variable {u : Universe} {known : Spills → Prop}

/-- The receiver of an instance member is told, if it resolves. -/
theorem noteReceiver_adds (receiver : Expr) (ref : MemberRef) {value : Option Expr}
    (hv : ∀ s : Spills, known s → s.resolve receiver = value) :
    Adds known (fun p => Instance u ref ∧ ∃ v, value = some v ∧ p = .nonNull v)
      (noteReceiver u (some receiver) ref) := by
  intro c hc
  dsimp only [noteReceiver]
  rw [StateM.bind_run]
  rcases hm : u.member ref with error | member
  · refine ⟨rfl, fun p => (or_iff_left ?_).symm⟩
    rintro ⟨⟨member, hmember, -⟩, -⟩
    rw [hm] at hmember
    cases hmember
  · rw [record_ok rfl]
    dsimp only
    cases hstatic : member.isStatic with
    | true =>
        refine ⟨rfl, fun p => (or_iff_left ?_).symm⟩
        rintro ⟨⟨member', hmember, hinstance⟩, -⟩
        rw [hm] at hmember
        cases hmember
        rw [hstatic] at hinstance
        cases hinstance
    | false =>
        have here : (get : Collect Collection) c = (c, c) := rfl
        have hi : Instance u ref := ⟨member, hm, hstatic⟩
        rw [if_pos (by rfl), StateM.bind_run, here]
        dsimp only
        rw [hv c.spills hc]
        cases value with
        | none => exact ⟨rfl, fun p => (or_iff_left (by simp)).symm⟩
        | some v =>
            refine ⟨rfl, fun p => ?_⟩
            show p ∈ c.facts ++ [.nonNull v] ↔ _
            simp [hi]

theorem forM_note_adds (facts : List Precondition) : Adds known (· ∈ facts) (facts.forM note) := by
  induction facts with
  | nil => exact Adds.pure.congr fun p => by simp
  | cons fact facts ih =>
      have hnote : Adds known (· = fact) (note fact) := fun c _ =>
        ⟨rfl, fun p => by
          show p ∈ c.facts ++ [fact] ↔ _
          simp⟩
      exact (hnote.seq ih).congr fun p => List.mem_cons.symm

/-- A call adds what its method declares. -/
theorem noteCall_adds (callee : Expr) :
    Adds known (NamesDeclaring u callee) (noteCall u callee) := by
  obtain ⟨form, type, source⟩ := callee
  cases form with
  | member receiver ref =>
      intro c hc
      dsimp only [noteCall]
      rw [StateM.bind_run]
      rcases hm : u.member ref with error | member
      · refine ⟨rfl, fun p => (or_iff_left ?_).symm⟩
        rw [namesDeclaring_member]
        rintro ⟨method, hmethod, -⟩
        obtain ⟨member, hmember, -⟩ := Universe.method_eq_ok.mp hmethod
        rw [hm] at hmember
        cases hmember
      · rw [record_ok rfl]
        dsimp only [Option.bind_some]
        rcases hf : member.method? with _ | method
        · refine ⟨rfl, fun p => (or_iff_left ?_).symm⟩
          rw [namesDeclaring_member]
          rintro ⟨method, hmethod, -⟩
          obtain ⟨member', hmember, hf'⟩ := Universe.method_eq_ok.mp hmethod
          rw [hm] at hmember
          cases hmember
          rw [hf] at hf'
          cases hf'
        · have hmethod : u.method ref = .ok method := Universe.method_eq_ok.mpr ⟨member, hm, hf⟩
          have hadds : Adds known (· ∈ method.preconditions) (method.preconditions.forM note) :=
            forM_note_adds method.preconditions
          refine hadds.congr (fun p => ?_) c hc
          rw [namesDeclaring_member, Declares]
          simp [hmethod]
  | _ => exact Adds.pure.congr fun p => by simp [NamesDeclaring]

end

/-! ## Walks -/

/-- None of the temporaries from `n` to `n'` has a known value. -/
def Unknown (n n' : Nat) (s : Spills) : Prop :=
  ∀ id : LocalId, n ≤ id.index → id.index < n' → s.get? id = none

/-- The walk adds the facts, if the temporaries from `n` to `n'` are unknown before, and tells
    values of these temporaries only. -/
structure Follows (n n' : Nat) (added : Precondition → Prop) (walk : Collect Unit) : Prop where
  facts : ∀ c, Unknown n n' c.spills → ∀ p, p ∈ (walk c).2.facts ↔ p ∈ c.facts ∨ added p
  spills : ∀ c, Unknown n n' c.spills → ∀ id : LocalId, id.index < n ∨ n' ≤ id.index →
    (walk c).2.spills.get? id = c.spills.get? id

namespace Follows

variable {n m n' : Nat} {added added' : Precondition → Prop} {first second : Collect Unit}

theorem congr (h : Follows n n' added first) (heq : ∀ p, added p ↔ added' p) :
    Follows n n' added' first :=
  ⟨fun c hc p => by rw [h.facts c hc, heq], h.spills⟩

theorem pure : Follows n n (fun _ => False) (Pure.pure ()) :=
  ⟨fun _ _ _ => (or_false _).symm ▸ Iff.rfl, fun _ _ _ _ => rfl⟩

/-- The second walk finds its temporaries as unknown as the first did. -/
theorem seq (hf : Follows n m added first) (hs : Follows m n' added' second) (hn : n ≤ m)
    (hm : m ≤ n') : Follows n n' (fun p => added p ∨ added' p) (first >>= fun _ => second) := by
  have hbefore : ∀ c : Collection, Unknown n n' c.spills → Unknown n m c.spills :=
    fun c hc id hge hlt => hc id hge (by omega)
  have hbetween : ∀ c : Collection, Unknown n n' c.spills → Unknown m n' (first c).2.spills := by
    intro c hc id hge hlt
    rw [hf.spills c (hbefore c hc) id (Or.inr hge)]
    exact hc id (by omega) hlt
  constructor
  · intro c hc p
    rw [StateM.bind_run, hs.facts _ (hbetween c hc), hf.facts c (hbefore c hc), or_assoc]
  · intro c hc id hid
    rw [StateM.bind_run, hs.spills _ (hbetween c hc) id (by omega),
      hf.spills c (hbefore c hc) id (by omega)]

end Follows

/-- A note before a walk. -/
theorem Adds.before {n n' : Nat} {added added' : Precondition → Prop} {action walk : Collect Unit}
    (ha : Adds (Unknown n n') added action) (hw : Follows n n' added' walk) :
    Follows n n' (fun p => added p ∨ added' p) (action >>= fun _ => walk) := by
  constructor
  · intro c hc p
    obtain ⟨hspills, hfacts⟩ := ha c hc
    rw [StateM.bind_run, hw.facts _ (hspills ▸ hc), hfacts, or_assoc]
  · intro c hc id hid
    obtain ⟨hspills, -⟩ := ha c hc
    rw [StateM.bind_run, hw.spills _ (hspills ▸ hc) id hid, hspills]

/-! ## Statements -/

/-- Only the assignment to a temporary tells a value. -/
theorem noteSpill_of_not_temporary {form : StmtForm}
    (h : ∀ target value, form = .assignment target value → target.temporary? = none) :
    noteSpill form = Pure.pure () := by
  unfold noteSpill
  split
  · exact absurd (h _ _ rfl) (by simp [Expr.temporary?])
  · rfl

theorem visitStmt_of_not_temporary {u : Universe} {form : StmtForm} (source : Option SourceContext)
    (h : ∀ target value, form = .assignment target value → target.temporary? = none) :
    (visitor u).visitStmt ⟨form, source⟩ = (visitor u).walkStmt form := by
  show (noteSpill form >>= fun _ => (visitor u).walkStmt form) = _
  rw [noteSpill_of_not_temporary h]
  rfl

/-- The assignment to a temporary tells what the value resolves to, or that it is not known. -/
theorem noteSpill_temporary (id : LocalId) (type : Option TypeRef) (source : Option SourceContext)
    (value : Expr) (c : Collection) :
    ∃ spills : Spills, (noteSpill (.assignment ⟨.temporary id, type, source⟩ value) c).2 =
        { c with spills } ∧
      spills.get? id = c.spills.resolve value ∧
      ∀ id', id' ≠ id → spills.get? id' = c.spills.get? id' := by
  unfold noteSpill
  rw [modify_run]
  cases c.spills.resolve value with
  | some v =>
      exact ⟨_, rfl, Spills.get?_insert_self id v, fun id' h => Spills.get?_insert_of_ne v h⟩
  | none => exact ⟨_, rfl, Spills.get?_erase_self id, fun id' h => Spills.get?_erase_of_ne h⟩

/-- A value is resolved before it is walked through, so what the walk tells comes too late. -/
theorem visit_store {u : Universe} {value : Expr} {n n' : Nat} {added : Precondition → Prop}
    (hw : Follows n n' added ((visitor u).visitExpr value)) (id : LocalId) (hid : n' ≤ id.index)
    (type : Option TypeRef) {c : Collection} (hc : Unknown n n' c.spills) :
    ∃ c', ((visitor u).visitStmt (.assignment ⟨.temporary id, type, none⟩ value) c).2 = c' ∧
      (∀ p, p ∈ c'.facts ↔ p ∈ c.facts ∨ added p) ∧
      c'.spills.get? id = c.spills.resolve value ∧
      ∀ id' : LocalId, id' ≠ id → id'.index < n ∨ n' ≤ id'.index →
        c'.spills.get? id' = c.spills.get? id' := by
  obtain ⟨spills, hspill, hself, hother⟩ := noteSpill_temporary id type none value c
  have run : ((visitor u).visitStmt (.assignment ⟨.temporary id, type, none⟩ value) c).2 =
      ((visitor u).visitExpr value { c with spills }).2 := by
    rw [← hspill]
    rfl
  have hunknown : Unknown n n' spills := by
    intro id' hge hlt
    rw [hother id' (by rintro rfl; omega)]
    exact hc id' hge hlt
  refine ⟨_, run, hw.facts _ hunknown, ?_, fun id' hne hout => ?_⟩
  · rw [hw.spills _ hunknown id (Or.inr hid), hself]
  · rw [hw.spills _ hunknown id' hout, hother id' hne]

section

variable {u : Universe} {n m n' : Nat} {added added' told : Precondition → Prop}
  {tail : Collect Unit} {v : Option Expr}

theorem ne_of_index {id : LocalId} {k : Nat} (h : id.index ≠ k) : id ≠ ⟨k⟩ :=
  fun heq => h (congrArg LocalId.index heq)

/-- A value is stored in the next temporary, and what comes behind goes by its value. -/
theorem store_follows {value : Expr} (hw : Follows n n' added ((visitor u).visitExpr value))
    (hv : ∀ s : Spills, Unknown n n' s → s.resolve value = v)
    (ht : Adds (fun s => s.get? ⟨n'⟩ = v) told tail) (hn : n ≤ n') (type : Option TypeRef) :
    Follows n (n' + 1) (fun p => added p ∨ told p)
      ((visitor u).visitStmt (.assignment ⟨.temporary ⟨n'⟩, type, none⟩ value) >>=
        fun _ => tail) := by
  have hinner : ∀ c : Collection, Unknown n (n' + 1) c.spills → Unknown n n' c.spills :=
    fun c hc id hge hlt => hc id hge (by omega)
  constructor
  · intro c hc p
    obtain ⟨c', run, hfacts, hself, -⟩ := visit_store hw ⟨n'⟩ (Nat.le_refl n') type (hinner c hc)
    obtain ⟨-, htold⟩ := ht c' (hself.trans (hv _ (hinner c hc)))
    rw [StateM.bind_run, run, htold, hfacts, or_assoc]
  · intro c hc id hid
    obtain ⟨c', run, -, hself, hother⟩ := visit_store hw ⟨n'⟩ (Nat.le_refl n') type (hinner c hc)
    obtain ⟨hspills, -⟩ := ht c' (hself.trans (hv _ (hinner c hc)))
    rw [StateM.bind_run, run, hspills]
    exact hother id (ne_of_index (by omega)) (by omega)

/-- Two values are stored, and what comes behind goes by the first of them. -/
theorem stores_follow {first second : Expr}
    (hf : Follows n m added ((visitor u).visitExpr first))
    (hs : Follows m n' added' ((visitor u).visitExpr second)) (hn : n ≤ m) (hm : m ≤ n')
    (hv : ∀ s : Spills, Unknown n m s → s.resolve first = v)
    (ht : Adds (fun s => s.get? ⟨n'⟩ = v) told tail) (type type' : Option TypeRef) :
    Follows n (n' + 2) (fun p => added p ∨ added' p ∨ told p)
      ((visitor u).visitStmt (.assignment ⟨.temporary ⟨n'⟩, type, none⟩ first) >>= fun _ =>
        (visitor u).visitStmt (.assignment ⟨.temporary ⟨n' + 1⟩, type', none⟩ second) >>= fun _ =>
          tail) := by
  have hwalk : ∀ c : Collection, Unknown n (n' + 2) c.spills → ∃ c' c'',
      ((visitor u).visitStmt (.assignment ⟨.temporary ⟨n'⟩, type, none⟩ first) c).2 = c' ∧
      ((visitor u).visitStmt (.assignment ⟨.temporary ⟨n' + 1⟩, type', none⟩ second) c').2 = c'' ∧
      (∀ p, p ∈ c''.facts ↔ p ∈ c.facts ∨ added p ∨ added' p) ∧ c''.spills.get? ⟨n'⟩ = v ∧
      ∀ id : LocalId, id.index < n ∨ n' + 2 ≤ id.index →
        c''.spills.get? id = c.spills.get? id := by
    intro c hc
    have hfirst : Unknown n m c.spills := fun id hge hlt => hc id hge (by omega)
    obtain ⟨c', run, hfacts, hself, hother⟩ := visit_store hf ⟨n'⟩ hm type hfirst
    -- The first temporary lies above those of the second value.
    have hsecond : Unknown m n' c'.spills := by
      intro id hge hlt
      rw [hother id (ne_of_index (by omega)) (Or.inr hge)]
      exact hc id (by omega) (by omega)
    obtain ⟨c'', run', hfacts', -, hother'⟩ :=
      visit_store hs ⟨n' + 1⟩ (Nat.le_succ n') type' hsecond
    refine ⟨c', c'', run, run', fun p => ?_, ?_, fun id hid => ?_⟩
    · rw [hfacts', hfacts, or_assoc]
    · rw [hother' ⟨n'⟩ (by simp) (Or.inr (Nat.le_refl n')), hself, hv _ hfirst]
    · rw [hother' id (ne_of_index (by omega)) (by omega),
        hother id (ne_of_index (by omega)) (by omega)]
  constructor
  · intro c hc p
    obtain ⟨c', c'', run, run', hfacts, hself, -⟩ := hwalk c hc
    rw [StateM.bind_run, run, StateM.bind_run, run', (ht c'' hself).2, hfacts]
    simp only [or_assoc]
  · intro c hc id hid
    obtain ⟨c', c'', run, run', -, hself, hother⟩ := hwalk c hc
    rw [StateM.bind_run, run, StateM.bind_run, run', (ht c'' hself).1, hother id hid]

end

end MiddleEnd.Preconditions
