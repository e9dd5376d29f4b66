/-
  The types that a unit reaches: those it lists, and the types nested in them at any depth. What is
  enumerated for a unit are methods of such types (`of_mem_unitMethods`). The enumeration finds
  every listed type, it succeeds wherever nesting leads from types that are there to types that are
  there (`unitMethods_ok_of`), and where it fails, it names a type that is reached and missing
  (`missing_of_unitMethods`).
-/
import MiddleEnd.Proofs.Except
import MiddleEnd.Proofs.Universe.Lookup

namespace MiddleEnd.Universe

/-- Listed by the unit, or nested in such a type. -/
inductive Reached (u : Universe) (unit : CompilationUnit) : TypeId → Prop
  | listed {id : TypeId} : id ∈ unit.root.allTypes → Reached u unit id
  | nested {id inner : TypeId} {node : TypeNode} : Reached u unit id → u.type? id = some node →
      inner ∈ nestedTypes node.members → Reached u unit inner

/-- A property of types that nesting keeps. -/
def KeptByNesting (u : Universe) (p : TypeId → Prop) : Prop :=
  ∀ id, p id → ∃ node, u.type? id = some node ∧ ∀ inner ∈ nestedTypes node.members, p inner

variable {u : Universe} {unit : CompilationUnit} {p : TypeId → Prop}

theorem Reached.of_kept (hp : u.KeptByNesting p) (ht : ∀ id ∈ unit.root.allTypes, p id)
    {id : TypeId} (h : u.Reached unit id) : p id := by
  induction h with
  | listed hid => exact ht _ hid
  | nested _ hn hinner ih =>
      obtain ⟨node, hnode, hkept⟩ := hp _ ih
      obtain rfl := Option.some.inj (hn.symm.trans hnode)
      exact hkept _ hinner

/-! ## The methods of a type -/

/-- One level of the enumeration: a type that is there, its own methods, and what is found in the
    types nested in it. -/
theorem typeMethods_succ_ok {levels : Nat} {id : TypeId} {refs : List MemberRef} :
    u.typeMethods (levels + 1) id = .ok refs ↔
      ∃ node found, u.type? id = some node ∧
        (nestedTypes node.members).mapM (u.typeMethods levels) = .ok found ∧
        refs = (methodPositions node.members).map (fun i => ⟨id, i⟩) ++ found.flatten := by
  rw [typeMethods, Universe.type]
  rcases u.type? id with _ | node
  · simp [bind, Except.bind]
  · rcases h : (nestedTypes node.members).mapM (u.typeMethods levels) with e | found
    · simp [bind, Except.bind, h]
    · simp [bind, Except.bind, pure, Except.pure, h, eq_comm]

theorem isMethod_of_mem_methodPositions {id : TypeId} {node : TypeNode} {i : Nat}
    (hn : u.type? id = some node) (hi : i ∈ methodPositions node.members) :
    u.IsMethod ⟨id, i⟩ := by
  obtain ⟨⟨m, j⟩, hmem, hj⟩ := List.mem_filterMap.mp hi
  have hat : node.members[j]? = some m := List.mem_zipIdx_iff_getElem?.mp hmem
  dsimp only at hj
  by_cases hsome : m.method?.isSome = true
  · rw [if_pos hsome] at hj
    obtain rfl : j = i := Option.some.inj hj
    obtain ⟨method, hm⟩ := Option.isSome_iff_exists.mp hsome
    exact ⟨method, method_eq_ok.mpr ⟨m, member_eq_ok.mpr ⟨node, hn, hat⟩, hm⟩⟩
  · rw [if_neg hsome] at hj
    cases hj

theorem of_mem_typeMethods {levels : Nat} {id : TypeId} {refs : List MemberRef} {ref : MemberRef}
    (hid : u.Reached unit id) (h : u.typeMethods levels id = .ok refs) (href : ref ∈ refs) :
    u.Reached unit ref.type ∧ u.IsMethod ref := by
  induction levels generalizing id refs with
  | zero =>
      obtain rfl : [] = refs := Except.ok.inj h
      exact absurd href List.not_mem_nil
  | succ levels ih =>
      obtain ⟨node, found, hn, hfound, rfl⟩ := typeMethods_succ_ok.mp h
      rcases List.mem_append.mp href with hown | hnested
      · obtain ⟨i, hi, rfl⟩ := List.mem_map.mp hown
        exact ⟨hid, isMethod_of_mem_methodPositions hn hi⟩
      · obtain ⟨inner, hinner, refs, hrefs, href⟩ := mem_flatten_of_mapM hfound ref hnested
        exact ih (.nested hid hn hinner) hrefs href

theorem typeMethods_ok_of (hp : u.KeptByNesting p) (levels : Nat) {id : TypeId} (h : p id) :
    ∃ refs, u.typeMethods levels id = .ok refs := by
  induction levels generalizing id with
  | zero => exact ⟨[], rfl⟩
  | succ levels ih =>
      obtain ⟨node, hn, hkept⟩ := hp id h
      obtain ⟨found, hfound⟩ := mapM_ok fun inner hinner => ih (hkept inner hinner)
      exact ⟨_, typeMethods_succ_ok.mpr ⟨node, found, hn, hfound, rfl⟩⟩

/-- A failure is that of a type which nesting leads to and which is not there. -/
theorem missing_of_typeMethods {levels : Nat} {id : TypeId} {e : InternalError}
    (hid : u.Reached unit id) (h : u.typeMethods levels id = .error e) :
    ∃ missing, e = .danglingType missing ∧ u.Reached unit missing ∧ u.type? missing = none := by
  induction levels generalizing id with
  | zero => cases h
  | succ levels ih =>
      rcases hn : u.type? id with _ | node
      · simp only [typeMethods, Universe.type, hn, bind, Except.bind, Except.error.injEq] at h
        exact ⟨id, h.symm, hid, hn⟩
      · rcases hfound : (nestedTypes node.members).mapM (u.typeMethods levels) with e' | found
        · simp only [typeMethods, Universe.type, hn, bind, Except.bind, hfound,
            Except.error.injEq] at h
          subst h
          obtain ⟨inner, hinner, herror⟩ := error_of_mapM hfound
          exact ih (.nested hid hn hinner) herror
        · rw [typeMethods_succ_ok.mpr ⟨node, found, hn, hfound, rfl⟩] at h
          cases h

/-! ## The methods of a unit -/

theorem unitMethods_ok {refs : List MemberRef} :
    u.unitMethods unit = .ok refs ↔
      ∃ found, unit.root.allTypes.mapM (u.typeMethods (u.typeCount + 1)) = .ok found ∧
        refs = found.flatten := by
  unfold unitMethods
  rcases unit.root.allTypes.mapM (u.typeMethods (u.typeCount + 1)) with e | found
  · simp [bind, Except.bind]
  · simp [bind, Except.bind, pure, Except.pure, eq_comm]

theorem of_mem_unitMethods {refs : List MemberRef} (h : u.unitMethods unit = .ok refs)
    {ref : MemberRef} (href : ref ∈ refs) : u.Reached unit ref.type ∧ u.IsMethod ref := by
  obtain ⟨found, hfound, rfl⟩ := unitMethods_ok.mp h
  obtain ⟨id, hid, refs, hrefs, href⟩ := mem_flatten_of_mapM hfound ref href
  exact of_mem_typeMethods (.listed hid) hrefs href

theorem isMethod_of_unitMethods {refs : List MemberRef} (h : u.unitMethods unit = .ok refs)
    {ref : MemberRef} (href : ref ∈ refs) : u.IsMethod ref :=
  (of_mem_unitMethods h href).2

theorem unitMethods_ok_of (hp : u.KeptByNesting p) (ht : ∀ id ∈ unit.root.allTypes, p id) :
    ∃ refs, u.unitMethods unit = .ok refs := by
  obtain ⟨found, hfound⟩ := mapM_ok fun id hid =>
    typeMethods_ok_of hp (u.typeCount + 1) (ht id hid)
  exact ⟨found.flatten, unitMethods_ok.mpr ⟨found, hfound, rfl⟩⟩

theorem missing_of_unitMethods {e : InternalError} (h : u.unitMethods unit = .error e) :
    ∃ id, e = .danglingType id ∧ u.Reached unit id ∧ u.type? id = none := by
  rcases hfound : unit.root.allTypes.mapM (u.typeMethods (u.typeCount + 1)) with e' | found
  · simp only [unitMethods, hfound, bind, Except.bind, Except.error.injEq] at h
    subst h
    obtain ⟨id, hid, herror⟩ := error_of_mapM hfound
    exact missing_of_typeMethods (.listed hid) herror
  · rw [unitMethods_ok.mpr ⟨found, hfound, rfl⟩] at h
    cases h

/-- The enumeration looks up every type that the unit lists. -/
theorem hasType_of_unitMethods {refs : List MemberRef} (h : u.unitMethods unit = .ok refs) :
    ∀ id ∈ unit.root.allTypes, u.HasType id := by
  intro id hid
  obtain ⟨found, hfound, -⟩ := unitMethods_ok.mp h
  obtain ⟨own, hown⟩ := ok_of_mapM hfound id hid
  obtain ⟨node, -, hn, -⟩ := typeMethods_succ_ok.mp hown
  exact ⟨node, hn⟩

end MiddleEnd.Universe
