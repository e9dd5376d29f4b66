/-
  The order in which the methods of a unit are listed. `InPreorder` is the order of types: each
  type, then what is nested in it, then what comes behind it. It is said without a bound on the
  depth, so it exists only where nesting comes to an end and all types are there. Where nesting has
  no cycle, the enumeration lists the methods of the types in this order (`unitMethods_eq_ok_iff`),
  and it fails exactly if a type is missing (`unitMethods_fails_iff`).

  `sweep` finds the same with a stack in place of the recursion: the types of the unit lie on it
  with the first one on top, and each turn takes one type off and puts the types nested in it on.
  What the stack holds below a type is not touched before all that is nested in the type has been
  taken off again (`Sweeps`). Hence the loop comes to an end wherever nesting has no cycle, and with
  the same result (`sweep_eq_unitMethods`).
-/
import MiddleEnd.Proofs.Universe.Enclosing
import MiddleEnd.Proofs.Universe.Reach

namespace MiddleEnd.Universe

/-- The second type is among the members of the first. -/
def Nests (u : Universe) (outer inner : TypeId) : Prop :=
  ∃ node, u.type? outer = some node ∧ inner ∈ nestedTypes node.members

/-- No type that the unit reaches is nested in itself, however deep. -/
def NestsWithoutCycle (u : Universe) (unit : CompilationUnit) : Prop :=
  ∀ id, u.Reached unit id → ¬Relation.TransGen u.Nests id id

/-- The methods among the members of a type. -/
def ownMethods (id : TypeId) (node : TypeNode) : List MemberRef :=
  (methodPositions node.members).map fun i => ⟨id, i⟩

def methodsOf (u : Universe) (id : TypeId) : List MemberRef :=
  match u.type? id with
  | some node => ownMethods id node
  | none => []

/-- From the types `ids` on, types are met in the order `met`. -/
inductive InPreorder (u : Universe) : (ids met : List TypeId) → Prop
  | nil : InPreorder u [] []
  | cons {id : TypeId} {node : TypeNode} {ids inner rest : List TypeId} :
      u.type? id = some node → InPreorder u (nestedTypes node.members) inner →
      InPreorder u ids rest → InPreorder u (id :: ids) (id :: (inner ++ rest))

/-- At most so many turns of the loop. `pending` holds the types that are still to be met, the next
    one at its end. There is no result if the turns do not suffice. -/
def sweep (u : Universe) : (turns : Nat) → (pending : List TypeId) → (found : List MemberRef) →
    Option (Except InternalError (List MemberRef))
  | 0, _, _ => none
  | turns + 1, pending, found =>
    match pending.getLast? with
    | none => some (.ok found)
    | some id =>
      match u.type? id with
      | none => some (.error (.danglingType id))
      | some node => u.sweep turns (pending.dropLast ++ (nestedTypes node.members).reverse)
          (found ++ ownMethods id node)

variable {u : Universe} {unit : CompilationUnit}

/-! ## Reached types -/

theorem reached_iff {id : TypeId} :
    u.Reached unit id ↔ ∃ root ∈ unit.root.allTypes, Relation.ReflTransGen u.Nests root id := by
  constructor
  · intro h
    induction h with
    | listed hid => exact ⟨_, hid, .refl⟩
    | nested _ hn hinner ih =>
        obtain ⟨root, hroot, hchain⟩ := ih
        exact ⟨root, hroot, hchain.tail ⟨_, hn, hinner⟩⟩
  · rintro ⟨root, hroot, hchain⟩
    induction hchain with
    | refl => exact .listed hroot
    | tail _ hstep ih =>
        obtain ⟨node, hn, hinner⟩ := hstep
        exact .nested ih hn hinner

/-- Nesting below the type comes to an end within so many levels. -/
def EndsWithin (u : Universe) : (levels : Nat) → TypeId → Prop
  | 0, _ => False
  | levels + 1, id => ∀ inner, u.Nests id inner → u.EndsWithin levels inner

/-- A chain of nested types without a cycle is no longer than there are types. -/
theorem endsWithin_of_seen (hu : u.NestsWithoutCycle unit) {levels : Nat} {id : TypeId}
    {seen : List TypeId} (hid : u.Reached unit id) (hseen : seen.Nodup)
    (hreach : ∀ x ∈ seen, Relation.TransGen u.Nests x id)
    (hlevels : u.typeCount < levels + seen.length) : u.EndsWithin levels id := by
  induction levels generalizing id seen with
  | zero =>
      have hle : seen.length ≤ u.typeCount := by
        apply length_le_typeCount hseen
        intro x hx
        obtain ⟨inner, ⟨node, hn, -⟩, -⟩ := Relation.TransGen.head'_iff.mp (hreach x hx)
        exact ⟨node, hn⟩
      omega
  | succ levels ih =>
      intro inner hstep
      obtain ⟨node, hn, hinner⟩ := hstep
      have hnew : id ∉ seen := fun hmem => hu id hid (hreach id hmem)
      refine ih (.nested hid hn hinner) (List.nodup_cons.mpr ⟨hnew, hseen⟩) (fun x hx => ?_) ?_
      · rcases List.mem_cons.mp hx with rfl | hx
        · exact .single ⟨node, hn, hinner⟩
        · exact (hreach x hx).tail ⟨node, hn, hinner⟩
      · rw [List.length_cons]
        omega

theorem endsWithin_typeCount (hu : u.NestsWithoutCycle unit) {id : TypeId}
    (hid : u.Reached unit id) : u.EndsWithin (u.typeCount + 1) id :=
  endsWithin_of_seen hu hid List.nodup_nil (by simp) (by simp)

/-! ## The order of types -/

namespace InPreorder

theorem append {ids ids' met met' : List TypeId} (h : u.InPreorder ids met)
    (h' : u.InPreorder ids' met') : u.InPreorder (ids ++ ids') (met ++ met') := by
  induction h with
  | nil => exact h'
  | cons hn hinner _ _ ih =>
      rw [List.cons_append, List.cons_append, List.append_assoc]
      exact .cons hn hinner ih

/-- There is only one order. -/
theorem unique {ids met met' : List TypeId} (h : u.InPreorder ids met)
    (h' : u.InPreorder ids met') : met = met' := by
  induction h generalizing met' with
  | nil =>
      cases h'
      rfl
  | cons hn _ _ ih ih' =>
      cases h' with
      | cons hn' hinner hrest =>
          obtain rfl := Option.some.inj (hn.symm.trans hn')
          rw [ih hinner, ih' hrest]

theorem hasType {ids met : List TypeId} (h : u.InPreorder ids met) : ∀ id ∈ met, u.HasType id := by
  induction h with
  | nil => exact fun _ hid => absurd hid List.not_mem_nil
  | cons hn _ _ ih ih' =>
      rw [List.forall_mem_cons, List.forall_mem_append]
      exact ⟨⟨_, hn⟩, ih, ih'⟩

/-- The types that are met are those which nesting leads to. -/
theorem mem_iff {ids met : List TypeId} (h : u.InPreorder ids met) {id : TypeId} :
    id ∈ met ↔ ∃ root ∈ ids, Relation.ReflTransGen u.Nests root id := by
  induction h with
  | nil => simp
  | @cons first node ids inner rest hn _ _ ih ih' =>
      simp only [List.mem_cons, List.mem_append, ih, ih', exists_eq_or_imp]
      have hfirst : Relation.ReflTransGen u.Nests first id ↔
          id = first ∨
            ∃ root ∈ nestedTypes node.members, Relation.ReflTransGen u.Nests root id := by
        rw [Relation.ReflTransGen.cases_head_iff]
        constructor
        · rintro (rfl | ⟨root, ⟨node', hn', hroot⟩, hchain⟩)
          · exact .inl rfl
          · obtain rfl := Option.some.inj (hn.symm.trans hn')
            exact .inr ⟨root, hroot, hchain⟩
        · rintro (rfl | ⟨root, hroot, hchain⟩)
          · exact .inl rfl
          · exact .inr ⟨root, ⟨node, hn, hroot⟩, hchain⟩
      rw [hfirst, or_assoc]

end InPreorder

theorem methodsOf_eq {id : TypeId} {node : TypeNode} (hn : u.type? id = some node) :
    u.methodsOf id = ownMethods id node := by
  rw [methodsOf, hn]

/-! ## The enumeration -/

/-- What is found for each type of a list in the order of types is found so for the list. -/
theorem inPreorder_of_mapM {find : TypeId → Except InternalError (List MemberRef)}
    {ids : List TypeId} {found : List (List MemberRef)}
    (hfind : ∀ id ∈ ids, ∀ refs, find id = .ok refs →
      ∃ met, u.InPreorder [id] met ∧ refs = met.flatMap u.methodsOf)
    (h : ids.mapM find = .ok found) :
    ∃ met, u.InPreorder ids met ∧ found.flatten = met.flatMap u.methodsOf := by
  induction ids generalizing found with
  | nil =>
      obtain rfl : [] = found := Except.ok.inj h
      exact ⟨[], .nil, rfl⟩
  | cons id ids ih =>
      obtain ⟨refs, found, hid, hids, rfl⟩ := mapM_cons_ok.mp h
      obtain ⟨met, hmet, rfl⟩ := hfind id List.mem_cons_self refs hid
      obtain ⟨rest, hrest, hfound⟩ := ih (fun id' h' => hfind id' (List.mem_cons_of_mem id h')) hids
      exact ⟨met ++ rest, hmet.append hrest, by rw [List.flatten_cons, List.flatMap_append, hfound]⟩

/-- Deep enough, the methods of a type are listed in the order of types. -/
theorem inPreorder_of_typeMethods {levels : Nat} {id : TypeId} {refs : List MemberRef}
    (hend : u.EndsWithin levels id) (h : u.typeMethods levels id = .ok refs) :
    ∃ met, u.InPreorder [id] met ∧ refs = met.flatMap u.methodsOf := by
  induction levels generalizing id refs with
  | zero => exact hend.elim
  | succ levels ih =>
      obtain ⟨node, found, hn, hfound, rfl⟩ := typeMethods_succ_ok.mp h
      obtain ⟨inner, hinner, hflat⟩ := inPreorder_of_mapM
        (fun id' hid' refs => ih (hend id' ⟨node, hn, hid'⟩)) hfound
      refine ⟨_, .cons hn hinner .nil, ?_⟩
      rw [List.append_nil, List.flatMap_cons, ← hflat, methodsOf_eq hn]
      rfl

theorem inPreorder_of_unitMethods (hu : u.NestsWithoutCycle unit) {refs : List MemberRef}
    (h : u.unitMethods unit = .ok refs) :
    ∃ met, u.InPreorder unit.root.allTypes met ∧ refs = met.flatMap u.methodsOf := by
  obtain ⟨found, hfound, rfl⟩ := unitMethods_ok.mp h
  refine inPreorder_of_mapM (fun id hid refs => ?_) hfound
  exact inPreorder_of_typeMethods (endsWithin_typeCount hu (.listed hid))

/-- Where nesting has no cycle, the enumeration fails exactly if a type is missing. -/
theorem unitMethods_fails_iff (hu : u.NestsWithoutCycle unit) :
    (∃ e, u.unitMethods unit = .error e) ↔ ∃ id, u.Reached unit id ∧ u.type? id = none := by
  constructor
  · rintro ⟨e, he⟩
    obtain ⟨id, -, hid, hmissing⟩ := missing_of_unitMethods he
    exact ⟨id, hid, hmissing⟩
  · rintro ⟨id, hid, hmissing⟩
    rcases h : u.unitMethods unit with e | refs
    · exact ⟨e, rfl⟩
    · obtain ⟨met, hmet, -⟩ := inPreorder_of_unitMethods hu h
      obtain ⟨node, hn⟩ := hmet.hasType id (hmet.mem_iff.mpr (reached_iff.mp hid))
      rw [hmissing] at hn
      cases hn

/-- There, what it lists are the methods in the order of types. -/
theorem unitMethods_eq_ok_iff (hu : u.NestsWithoutCycle unit) {refs : List MemberRef} :
    u.unitMethods unit = .ok refs ↔
      ∃ met, u.InPreorder unit.root.allTypes met ∧ refs = met.flatMap u.methodsOf := by
  refine ⟨inPreorder_of_unitMethods hu, ?_⟩
  rintro ⟨met, hmet, rfl⟩
  rcases h : u.unitMethods unit with e | refs
  · obtain ⟨id, -, hid, hmissing⟩ := missing_of_unitMethods h
    obtain ⟨node, hn⟩ := hmet.hasType id (hmet.mem_iff.mpr (reached_iff.mp hid))
    rw [hmissing] at hn
    cases hn
  · obtain ⟨met', hmet', rfl⟩ := inPreorder_of_unitMethods hu h
    rw [hmet.unique hmet']

/-! ## The loop -/

/-- The loop takes the types `ids` off the stack and finds this, whatever lies below them. -/
def Sweeps (u : Universe) (ids : List TypeId) (result : Except InternalError (List MemberRef)) :
    Prop :=
  ∃ turns, ∀ more pending found, u.sweep (turns + more) (pending ++ ids.reverse) found =
    match result with
    | .ok refs => u.sweep more pending (found ++ refs)
    | .error e => some (.error e)

namespace Sweeps

theorem nil : u.Sweeps [] (.ok []) := ⟨0, fun _ _ _ => by simp⟩

theorem missing {id : TypeId} (hn : u.type? id = none) :
    u.Sweeps [id] (.error (.danglingType id)) := by
  refine ⟨1, fun more pending found => ?_⟩
  rw [Nat.add_comm, sweep]
  simp [hn]

/-- One turn: a type makes room for those nested in it. -/
theorem visit {id : TypeId} {node : TypeNode} (hn : u.type? id = some node)
    {result : Except InternalError (List MemberRef)}
    (h : u.Sweeps (nestedTypes node.members) result) :
    u.Sweeps [id] (result.map (ownMethods id node ++ ·)) := by
  obtain ⟨turns, h⟩ := h
  refine ⟨turns + 1, fun more pending found => ?_⟩
  rw [Nat.add_right_comm, sweep]
  simp only [List.reverse_singleton, List.getLast?_concat, hn, List.dropLast_concat, h]
  cases result with
  | ok refs => simp [Except.map]
  | error e => rfl

theorem append {ids ids' : List TypeId} {refs : List MemberRef}
    {result : Except InternalError (List MemberRef)} (h : u.Sweeps ids (.ok refs))
    (h' : u.Sweeps ids' result) : u.Sweeps (ids ++ ids') (result.map (refs ++ ·)) := by
  obtain ⟨turns, h⟩ := h
  obtain ⟨turns', h'⟩ := h'
  refine ⟨turns + turns', fun more pending found => ?_⟩
  rw [List.reverse_append, ← List.append_assoc, Nat.add_assoc, h]
  refine (h' more pending (found ++ refs)).trans ?_
  cases result with
  | ok refs => simp [Except.map]
  | error e => rfl

/-- What lies below a type that is missing is not met. -/
theorem failed {ids ids' : List TypeId} {e : InternalError} (h : u.Sweeps ids (.error e)) :
    u.Sweeps (ids ++ ids') (.error e) := by
  obtain ⟨turns, h⟩ := h
  refine ⟨turns, fun more pending found => ?_⟩
  rw [List.reverse_append, ← List.append_assoc, h]

/-- Types that are met one by one are met in a row. -/
theorem mapM {find : TypeId → Except InternalError (List MemberRef)} {ids : List TypeId}
    (h : ∀ id ∈ ids, u.Sweeps [id] (find id)) :
    u.Sweeps ids ((ids.mapM find).map List.flatten) := by
  induction ids with
  | nil => exact nil
  | cons id ids ih =>
      have hid := h id List.mem_cons_self
      have hids := ih fun id' hid' => h id' (List.mem_cons_of_mem id hid')
      rw [List.mapM_cons]
      rcases hf : find id with e | refs
      · rw [hf] at hid
        exact hid.failed
      · rw [hf] at hid
        have hboth := hid.append hids
        rcases hm : ids.mapM find with e | found
        · rwa [hm] at hboth
        · rwa [hm] at hboth

end Sweeps

theorem sweeps_typeMethods {levels : Nat} {id : TypeId} (hend : u.EndsWithin levels id) :
    u.Sweeps [id] (u.typeMethods levels id) := by
  induction levels generalizing id with
  | zero => exact hend.elim
  | succ levels ih =>
      rw [typeMethods, Universe.type]
      rcases hn : u.type? id with _ | node
      · exact .missing hn
      · have hnested := Sweeps.mapM fun id' hid' => ih (hend id' ⟨node, hn, hid'⟩)
        have hvisit := hnested.visit hn
        dsimp only [bind, Except.bind]
        rcases hm : (nestedTypes node.members).mapM (u.typeMethods levels) with e | found
        · rwa [hm] at hvisit
        · rwa [hm] at hvisit

/-- The loop comes to an end, and finds what the enumeration finds. -/
theorem sweep_eq_unitMethods (hu : u.NestsWithoutCycle unit) :
    ∃ turns, ∀ more, u.sweep (turns + more) unit.root.allTypes.reverse [] =
      some (u.unitMethods unit) := by
  have hsweeps : u.Sweeps unit.root.allTypes (u.unitMethods unit) := by
    have hall := Sweeps.mapM fun id (hid : id ∈ unit.root.allTypes) =>
      sweeps_typeMethods (endsWithin_typeCount hu (.listed hid))
    unfold unitMethods
    rcases hm : unit.root.allTypes.mapM (u.typeMethods (u.typeCount + 1)) with e | found
    · rwa [hm] at hall
    · rwa [hm] at hall
  obtain ⟨turns, h⟩ := hsweeps
  refine ⟨turns + 1, fun more => ?_⟩
  have hend := h (1 + more) [] []
  rw [List.nil_append, ← Nat.add_assoc] at hend
  rw [hend]
  rcases u.unitMethods unit with e | refs
  · rfl
  · show u.sweep (1 + more) [] refs = _
    rw [Nat.add_comm, sweep]
    rfl

end MiddleEnd.Universe
