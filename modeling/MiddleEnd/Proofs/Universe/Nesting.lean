/-
  How types are nested in a module, and what it takes to add more of them.

  A module is well formed if its list of types that are not nested is right, if declaring types and
  nested types fit together, and if members and accessors belong to the type that holds them
  (`Module.WellFormed`). While a type is filled this does not hold: the type is in the module before
  its members are, and further types come in between. So what is added is looked at by itself, as a
  forest of types below one outer type (`Forest`). Forests can be put behind each other, and a type
  that gets its members becomes the root of the forest behind it. A forest that is not below any
  type keeps a module well formed (`Module.WellFormed.adds`).
-/
import MiddleEnd.Proofs.Universe.Fresh

namespace MiddleEnd

/-! ## Types that are declared in a type -/

/-- Of types that stand from position `base` on in a module, those that are declared in `outer`. -/
def declaredIn (module : ModuleId) (outer : Option TypeId) : Nat → List TypeNode → List TypeId
  | _, [] => []
  | base, t :: ts =>
    if t.declaringType = outer then ⟨module, ⟨base⟩⟩ :: declaredIn module outer (base + 1) ts
    else declaredIn module outer (base + 1) ts

section

variable {module : ModuleId} {outer : Option TypeId} {base : Nat} {types : List TypeNode}

theorem declaredIn_append (first rest : List TypeNode) :
    declaredIn module outer base (first ++ rest) =
      declaredIn module outer base first ++ declaredIn module outer (base + first.length) rest := by
  induction first generalizing base with
  | nil => rfl
  | cons t first ih =>
      have hbase : base + 1 + first.length = base + (t :: first).length := by
        rw [List.length_cons]
        omega
      rw [List.cons_append, declaredIn, declaredIn, ih, hbase]
      split <;> rfl

theorem mem_declaredIn {id : TypeId} :
    id ∈ declaredIn module outer base types ↔
      ∃ i t, types[i]? = some t ∧ t.declaringType = outer ∧ id = ⟨module, ⟨base + i⟩⟩ := by
  induction types generalizing base with
  | nil => simp [declaredIn]
  | cons t types ih =>
      rw [declaredIn]
      constructor
      · intro h
        split at h
        · rename_i ht
          rcases List.mem_cons.mp h with rfl | h
          · exact ⟨0, t, rfl, ht, rfl⟩
          · obtain ⟨i, u, hi, hu, rfl⟩ := ih.mp h
            exact ⟨i + 1, u, hi, hu, by rw [Nat.add_assoc, Nat.add_comm 1 i]⟩
        · obtain ⟨i, u, hi, hu, rfl⟩ := ih.mp h
          exact ⟨i + 1, u, hi, hu, by rw [Nat.add_assoc, Nat.add_comm 1 i]⟩
      · rintro ⟨i, u, hi, hu, rfl⟩
        cases i with
        | zero =>
            obtain rfl : t = u := Option.some.inj hi
            rw [if_pos hu]
            exact List.mem_cons_self
        | succ i =>
            have hrest : (⟨module, ⟨base + (i + 1)⟩⟩ : TypeId) ∈
                declaredIn module outer (base + 1) types :=
              ih.mpr ⟨i, u, hi, hu, by rw [Nat.add_assoc, Nat.add_comm 1 i]⟩
            split
            · exact List.mem_cons_of_mem _ hrest
            · exact hrest

theorem nodup_declaredIn : (declaredIn module outer base types).Nodup := by
  induction types generalizing base with
  | nil => exact List.nodup_nil
  | cons t types ih =>
      rw [declaredIn]
      split
      · refine List.nodup_cons.mpr ⟨fun h => ?_, ih⟩
        obtain ⟨i, u, -, -, hid⟩ := mem_declaredIn.mp h
        injection hid with _ hindex
        injection hindex with hindex
        omega
      · exact ih

theorem declaredIn_eq_nil
    (h : ∀ (i : Nat) (t : TypeNode), types[i]? = some t → t.declaringType ≠ outer) :
    declaredIn module outer base types = [] := by
  rw [List.eq_nil_iff_forall_not_mem]
  intro id hid
  obtain ⟨i, t, hi, ht, -⟩ := mem_declaredIn.mp hid
  exact h i t hi ht

end

/-! ## Well-formed modules -/

theorem Module.type?_eq_some {m : Module} {id : TypeId} {t : TypeNode} :
    m.type? id = some t ↔ id.module = m.id ∧ m.types.toList[id.index.index]? = some t := by
  unfold Module.type? Arena.get? Arena.toList
  rw [Array.getElem?_toList]
  split
  · rename_i h
    exact ⟨fun ht => ⟨h, ht⟩, fun ht => ht.2⟩
  · rename_i h
    exact ⟨nofun, fun ht => absurd ht.1 h⟩

structure Module.WellFormed (m : Module) : Prop where
  home : ∀ {id t}, m.type? id = some t → t.declaringModule = m.id
  /-- Exactly the types that are not nested are listed, in their order. -/
  topLevel : m.topLevel = declaredIn m.id none 0 m.types.toList
  /-- A member belongs to the type that holds it. -/
  owner : ∀ {id t}, m.type? id = some t → ∀ x ∈ t.members, x.declaringType = id
  /-- A type is declared in another if and only if it is among the members of the other. -/
  nested : ∀ {inner outer}, (∃ t, m.type? inner = some t ∧ t.declaringType = some outer) ↔
    ∃ t, m.type? outer = some t ∧ inner ∈ Universe.nestedTypes t.members
  /-- There it stands once. -/
  once : ∀ {id t}, m.type? id = some t → (Universe.nestedTypes t.members).Nodup
  /-- Nested types come behind the type around them. -/
  behind : ∀ {inner outer t}, m.type? inner = some t → t.declaringType = some outer →
    outer.index.index < inner.index.index
  /-- The accessors of a property are methods of the same type. -/
  accessors : ∀ {id t}, m.type? id = some t → AccessorsAt id 0 t.members

theorem Module.wellFormed_empty (id : ModuleId) (name : String) :
    Module.WellFormed { id, name } := by
  have empty {i : TypeId} {t : TypeNode} (h : Module.type? { id, name } i = some t) : False := by
    obtain ⟨-, hat⟩ := type?_eq_some.mp h
    cases hat
  exact {
    home := fun h => (empty h).elim
    topLevel := rfl
    owner := fun h => (empty h).elim
    nested := ⟨fun ⟨_, h, _⟩ => (empty h).elim, fun ⟨_, h, _⟩ => (empty h).elim⟩
    once := fun h => (empty h).elim
    behind := fun h => (empty h).elim
    accessors := fun h => (empty h).elim }

/-! ## Forests -/

/-- A type with its members, where `nested` are the types among them. -/
structure TypeNode.Filled (id : TypeId) (nested : List TypeId) (t : TypeNode) : Prop where
  home : t.declaringModule = id.module
  owner : ∀ x ∈ t.members, x.declaringType = id
  nested_eq : Universe.nestedTypes t.members = nested
  accessors : AccessorsAt id 0 t.members

/-- Types from position `base` on. Each of them is declared in `outer` or in an earlier one of them,
    and its members are there. -/
structure Forest (module : ModuleId) (outer : Option TypeId) (base : Nat) (types : List TypeNode) :
    Prop where
  inside : ∀ {i : Nat} {t : TypeNode}, types[i]? = some t → t.declaringType = outer ∨
    ∃ k, k < i ∧ t.declaringType = some ⟨module, ⟨base + k⟩⟩
  filled : ∀ {i : Nat} {t : TypeNode}, types[i]? = some t → t.Filled ⟨module, ⟨base + i⟩⟩
    (declaredIn module (some ⟨module, ⟨base + i⟩⟩) base types)

/-- The outer type, if there is one, stands before position `base`. -/
def Before (base : Nat) (outer : Option TypeId) : Prop := ∀ o, outer = some o → o.index.index < base

namespace Forest

variable {module : ModuleId} {outer : Option TypeId} {base : Nat} {types : List TypeNode}

theorem nil : Forest module outer base [] := ⟨nofun, nofun⟩

/-- No type of a forest is declared anywhere but in the outer type or in the forest. -/
theorem declaredIn_other (h : Forest module outer base types) {other : Option TypeId}
    (ho : outer ≠ other)
    (hother : ∀ id, other = some id →
      id.index.index < base ∨ base + types.length ≤ id.index.index) :
    declaredIn module other base types = [] := by
  refine declaredIn_eq_nil fun i t hi ht => ?_
  obtain ⟨hlt, -⟩ := List.getElem?_eq_some_iff.mp hi
  rcases h.inside hi with hd | ⟨k, hk, hd⟩
  · exact ho (hd.symm.trans ht)
  · have hoff := hother _ (ht.symm.trans hd)
    dsimp only at hoff
    omega

/-- Two forests below the same type, one behind the other. -/
theorem append {rest : List TypeNode} (hb : Before base outer)
    (h : Forest module outer base types) (hr : Forest module outer (base + types.length) rest) :
    Forest module outer base (types ++ rest) := by
  have apart (i : Nat) : outer ≠ some ⟨module, ⟨base + i⟩⟩ := by
    intro ho
    have hlt := hb _ ho
    dsimp only at hlt
    omega
  constructor
  · intro i t hi
    by_cases hlt : i < types.length
    · rw [List.getElem?_append_left hlt] at hi
      exact h.inside hi
    · rw [List.getElem?_append_right (by omega)] at hi
      rcases hr.inside hi with hd | ⟨k, hk, hd⟩
      · exact .inl hd
      · exact .inr ⟨types.length + k, by omega, by rw [hd, Nat.add_assoc]⟩
  · intro i t hi
    rw [declaredIn_append]
    by_cases hlt : i < types.length
    · rw [List.getElem?_append_left hlt] at hi
      have hrest :
          declaredIn module (some ⟨module, ⟨base + i⟩⟩) (base + types.length) rest = [] := by
        refine hr.declaredIn_other (apart i) fun id hid => .inl ?_
        rw [← Option.some.inj hid]
        dsimp only
        omega
      rw [hrest, List.append_nil]
      exact h.filled hi
    · rw [List.getElem?_append_right (by omega)] at hi
      have hposition : base + types.length + (i - types.length) = base + i := by omega
      have hfilled := hr.filled hi
      rw [hposition] at hfilled
      have hfirst : declaredIn module (some ⟨module, ⟨base + i⟩⟩) base types = [] := by
        refine h.declaredIn_other (apart i) fun id hid => .inr ?_
        rw [← Option.some.inj hid]
        dsimp only
        omega
      rw [hfirst, List.nil_append]
      exact hfilled

/-- A type on top of the forest of the types that are nested in it. -/
theorem cons {root : TypeNode} (hb : Before base outer) (ho : root.declaringType = outer)
    (hroot : root.Filled ⟨module, ⟨base⟩⟩
      (declaredIn module (some ⟨module, ⟨base⟩⟩) (base + 1) types))
    (h : Forest module (some ⟨module, ⟨base⟩⟩) (base + 1) types) :
    Forest module outer base (root :: types) := by
  have skip (i : Nat) : declaredIn module (some ⟨module, ⟨base + i⟩⟩) base (root :: types) =
      declaredIn module (some ⟨module, ⟨base + i⟩⟩) (base + 1) types := by
    rw [declaredIn, if_neg]
    intro hd
    have hlt := hb _ (ho.symm.trans hd)
    dsimp only at hlt
    omega
  constructor
  · intro i t hi
    cases i with
    | zero =>
        obtain rfl : root = t := Option.some.inj hi
        exact .inl ho
    | succ i =>
        rcases h.inside hi with hd | ⟨k, hk, hd⟩
        · exact .inr ⟨0, by omega, hd⟩
        · exact .inr ⟨k + 1, by omega, by rw [hd, Nat.add_assoc, Nat.add_comm 1 k]⟩
  · intro i t hi
    rw [skip]
    cases i with
    | zero =>
        obtain rfl : root = t := Option.some.inj hi
        exact hroot
    | succ i =>
        have hfilled := h.filled hi
        rw [Nat.add_assoc, Nat.add_comm 1 i] at hfilled
        exact hfilled

end Forest

/-! ## Adding a forest -/

theorem Arena.length_toList {ι α : Type} (a : Arena ι α) : a.toList.length = a.size :=
  Array.length_toList

namespace Module

variable {m m' m'' : Module} {outer : Option TypeId} {roots : List TypeId} {new : List TypeNode}

/-- The module with the types of a forest behind its own. -/
structure Adds (m m' : Module) (outer : Option TypeId) (new : List TypeNode) : Prop where
  id_eq : m'.id = m.id
  types_eq : m'.types.toList = m.types.toList ++ new
  topLevel_eq : m'.topLevel = m.topLevel ++ declaredIn m.id none m.types.size new
  forest : Forest m.id outer m.types.size new

theorem Adds.size_eq (h : m.Adds m' outer new) : m'.types.size = m.types.size + new.length := by
  rw [← Arena.length_toList, h.types_eq, List.length_append, Arena.length_toList]

theorem Adds.trans {new' : List TypeNode} (h : m.Adds m' outer new)
    (h' : m'.Adds m'' outer new') (hb : Before m.types.size outer) :
    m.Adds m'' outer (new ++ new') where
  id_eq := h'.id_eq.trans h.id_eq
  types_eq := by rw [h'.types_eq, h.types_eq, List.append_assoc]
  topLevel_eq := by
    rw [h'.topLevel_eq, h.topLevel_eq, declaredIn_append, h.id_eq, h.size_eq, List.append_assoc]
  forest := by
    have hrest := h'.forest
    rw [h.id_eq, h.size_eq] at hrest
    exact h.forest.append hb hrest

/-- The old types are where they were. -/
theorem Adds.type? (h : m.Adds m' outer new) {id : TypeId} {t : TypeNode}
    (ht : m.type? id = some t) : m'.type? id = some t := by
  obtain ⟨hid, hat⟩ := type?_eq_some.mp ht
  obtain ⟨hlt, -⟩ := List.getElem?_eq_some_iff.mp hat
  refine type?_eq_some.mpr ⟨hid.trans h.id_eq.symm, ?_⟩
  rw [h.types_eq, List.getElem?_append_left hlt, hat]

/-- A type is an old one or one of the forest. -/
theorem Adds.type?_cases (h : m.Adds m' outer new) {id : TypeId} {t : TypeNode}
    (ht : m'.type? id = some t) :
    m.type? id = some t ∨ ∃ i, id = ⟨m.id, ⟨m.types.size + i⟩⟩ ∧ new[i]? = some t := by
  obtain ⟨hid, hat⟩ := type?_eq_some.mp ht
  rw [h.id_eq] at hid
  rw [h.types_eq] at hat
  by_cases hlt : id.index.index < m.types.toList.length
  · rw [List.getElem?_append_left hlt] at hat
    exact .inl (type?_eq_some.mpr ⟨hid, hat⟩)
  · rw [List.getElem?_append_right (by omega)] at hat
    rw [Arena.length_toList] at hlt hat
    refine .inr ⟨id.index.index - m.types.size, ?_, hat⟩
    obtain ⟨module, ⟨index⟩⟩ := id
    dsimp only at hid hlt ⊢
    rw [hid, Nat.add_sub_cancel' (by omega)]

theorem Adds.type?_new (h : m.Adds m' outer new) {i : Nat} {t : TypeNode}
    (ht : new[i]? = some t) : m'.type? ⟨m.id, ⟨m.types.size + i⟩⟩ = some t := by
  refine type?_eq_some.mpr ⟨h.id_eq.symm, ?_⟩
  rw [h.types_eq, List.getElem?_append_right (by rw [Arena.length_toList]; dsimp only; omega),
    Arena.length_toList]
  dsimp only
  rw [Nat.add_sub_cancel_left, ht]

/-- A forest that is not below any type keeps a module well formed. -/
theorem WellFormed.adds (hw : m.WellFormed) (h : m.Adds m' none new) : m'.WellFormed where
  home := by
    intro id t ht
    rcases h.type?_cases ht with ht | ⟨i, rfl, hi⟩
    · rw [hw.home ht, h.id_eq]
    · rw [(h.forest.filled hi).home, h.id_eq]
  topLevel := by
    rw [h.topLevel_eq, h.types_eq, h.id_eq, declaredIn_append, ← hw.topLevel, Nat.zero_add,
      Arena.length_toList]
  owner := by
    intro id t ht
    rcases h.type?_cases ht with ht | ⟨i, rfl, hi⟩
    · exact hw.owner ht
    · exact (h.forest.filled hi).owner
  nested := by
    intro inner outer
    constructor
    · rintro ⟨t, ht, ho⟩
      rcases h.type?_cases ht with ht | ⟨i, rfl, hi⟩
      · obtain ⟨u, hu, hmem⟩ := hw.nested.mp ⟨t, ht, ho⟩
        exact ⟨u, h.type? hu, hmem⟩
      · rcases h.forest.inside hi with hd | ⟨k, hk, hd⟩
        · rw [hd] at ho
          cases ho
        · obtain rfl := Option.some.inj (hd.symm.trans ho)
          obtain ⟨hlt, -⟩ := List.getElem?_eq_some_iff.mp hi
          have hat : new[k]? = some new[k] := List.getElem?_eq_getElem (by omega)
          refine ⟨new[k], h.type?_new hat, ?_⟩
          rw [(h.forest.filled hat).nested_eq]
          exact mem_declaredIn.mpr ⟨i, t, hi, hd, rfl⟩
    · rintro ⟨u, hu, hmem⟩
      rcases h.type?_cases hu with hu | ⟨k, rfl, hk⟩
      · obtain ⟨t, ht, ho⟩ := hw.nested.mpr ⟨u, hu, hmem⟩
        exact ⟨t, h.type? ht, ho⟩
      · rw [(h.forest.filled hk).nested_eq] at hmem
        obtain ⟨i, t, hi, ho, rfl⟩ := mem_declaredIn.mp hmem
        exact ⟨t, h.type?_new hi, ho⟩
  once := by
    intro id t ht
    rcases h.type?_cases ht with ht | ⟨i, rfl, hi⟩
    · exact hw.once ht
    · rw [(h.forest.filled hi).nested_eq]
      exact nodup_declaredIn
  behind := by
    intro inner outer t ht ho
    rcases h.type?_cases ht with ht | ⟨i, rfl, hi⟩
    · exact hw.behind ht ho
    · rcases h.forest.inside hi with hd | ⟨k, hk, hd⟩
      · rw [hd] at ho
        cases ho
      · obtain rfl := Option.some.inj (hd.symm.trans ho)
        dsimp only
        omega
  accessors := by
    intro id t ht
    rcases h.type?_cases ht with ht | ⟨i, rfl, hi⟩
    · exact hw.accessors ht
    · exact (h.forest.filled hi).accessors

/-! ## Entering types -/

/-- As long as positions do not wrap around, the module gets a forest with these roots. The outer
    type has to be there already. -/
structure Enters (m m' : Module) (outer : Option TypeId) (roots : List TypeId) : Prop where
  size_le : m.types.size ≤ m'.types.size
  adds : m'.types.size ≤ UInt32.size → Before m.types.size outer →
    ∃ new, m.Adds m' outer new ∧ declaredIn m.id outer m.types.size new = roots

/-- No types are entered. -/
theorem Enters.unchanged (hid : m'.id = m.id) (ht : m'.types = m.types)
    (hl : m'.topLevel = m.topLevel) : m.Enters m' outer [] := by
  have hsize : m.types.size = m'.types.size := by rw [ht]
  refine ⟨Nat.le_of_eq hsize, fun _ _ => ⟨[], ⟨hid, ?_, ?_, .nil⟩, rfl⟩⟩
  · rw [ht, List.append_nil]
  · rw [hl]
    exact (List.append_nil _).symm

theorem Enters.trans {roots' : List TypeId} (h : m.Enters m' outer roots)
    (h' : m'.Enters m'' outer roots') : m.Enters m'' outer (roots ++ roots') := by
  refine ⟨Nat.le_trans h.size_le h'.size_le, fun hs hb => ?_⟩
  obtain ⟨new, hadds, hroots⟩ := h.adds (Nat.le_trans h'.size_le hs) hb
  obtain ⟨new', hadds', hroots'⟩ := h'.adds hs fun o ho => Nat.lt_of_lt_of_le (hb o ho) h.size_le
  refine ⟨new ++ new', hadds.trans hadds' hb, ?_⟩
  rw [hadds.id_eq, hadds.size_eq] at hroots'
  rw [declaredIn_append, hroots, hroots']

section

variable {t : TypeNode} {id : TypeId}

theorem size_addType (m : Module) (t : TypeNode) :
    (m.addType t).1.types.size = m.types.size + 1 :=
  Array.size_push ..

theorem toList_addType (m : Module) (t : TypeNode) :
    (m.addType t).1.types.toList = m.types.toList ++ [t] :=
  Array.toList_push

/-- A new type stands behind the others. -/
theorem addType_id (hs : m.types.size < UInt32.size) :
    (m.addType t).2 = ⟨m.id, ⟨m.types.size⟩⟩ := by
  show (⟨m.id, ⟨m.types.size % UInt32.size⟩⟩ : TypeId) = _
  rw [Nat.mod_eq_of_lt hs]

theorem topLevel_addType (hs : m.types.size < UInt32.size) :
    (m.addType t).1.topLevel = m.topLevel ++ declaredIn m.id none m.types.size [t] := by
  show (if t.declaringType.isNone then m.topLevel ++ [(m.addType t).2] else m.topLevel) = _
  rw [addType_id hs, declaredIn]
  cases t.declaringType with
  | none => rfl
  | some outer => exact (List.append_nil _).symm

/-- A type without members. -/
theorem Enters.addType (hadd : m.addType t = (m', id)) (hhome : t.declaringModule = m.id)
    (hm : t.members = []) : m.Enters m' t.declaringType [id] := by
  obtain rfl : (m.addType t).1 = m' := congrArg Prod.fst hadd
  obtain rfl : (m.addType t).2 = id := congrArg Prod.snd hadd
  refine ⟨by rw [size_addType]; omega, fun hs hb => ⟨[t], ?_, ?_⟩⟩
  · rw [size_addType] at hs
    refine ⟨rfl, toList_addType m t, topLevel_addType hs, .cons hb rfl ?_ .nil⟩
    refine ⟨hhome, ?_, ?_, ?_⟩ <;> rw [hm]
    · exact fun _ hx => absurd hx List.not_mem_nil
    · rfl
    · exact .nil
  · rw [size_addType] at hs
    rw [addType_id hs, declaredIn, if_pos rfl, declaredIn]

theorem size_modifyType (m : Module) (id : TypeId) (f : TypeNode → TypeNode) :
    (m.modifyType id f).types.size = m.types.size := by
  unfold modifyType
  split
  · exact Array.size_modify
  · rfl

theorem topLevel_modifyType (m : Module) (id : TypeId) (f : TypeNode → TypeNode) :
    (m.modifyType id f).topLevel = m.topLevel := by
  unfold modifyType
  split <;> rfl

theorem toList_modifyType {id : TypeId} (hid : id.module = m.id) (f : TypeNode → TypeNode) :
    (m.modifyType id f).types.toList = m.types.toList.modify id.index.index f := by
  unfold modifyType
  rw [if_pos hid]
  exact Array.toList_modify

theorem modify_behind {α : Type} (first rest : List α) (a : α) (f : α → α) :
    (first ++ a :: rest).modify first.length f = first ++ f a :: rest := by
  rw [List.modify_eq_take_cons_drop (by simp)]
  simp

/-- A type, the types that are nested in it, and then its members. -/
theorem Enters.declare {members : List Member} (hadd : m.addType t = (m', id))
    (hhome : t.declaringModule = m.id) (h : m'.Enters m'' (some id) roots)
    (ho : ∀ x ∈ members, x.declaringType = id) (ha : AccessorsAt id 0 members)
    (hn : Universe.nestedTypes members = roots) :
    m.Enters (m''.modifyType id fun t => { t with members }) t.declaringType [id] := by
  obtain rfl : (m.addType t).1 = m' := congrArg Prod.fst hadd
  obtain rfl : (m.addType t).2 = id := congrArg Prod.snd hadd
  have hsize := h.size_le
  rw [size_addType] at hsize
  refine ⟨by rw [size_modifyType]; omega, fun hs hb => ?_⟩
  rw [size_modifyType] at hs
  have hlt : m.types.size < UInt32.size := by omega
  obtain ⟨new, hadds, hroots⟩ := h.adds hs (by
    rintro _ ⟨⟩
    rw [addType_id hlt, size_addType]
    exact Nat.lt_succ_self _)
  rw [addType_id hlt] at ho ha hroots hadds ⊢
  have hid : (m.addType t).1.id = m.id := rfl
  have hforest := hadds.forest
  rw [hid, size_addType] at hforest hroots
  refine ⟨{ t with members } :: new, ⟨?_, ?_, ?_, ?_⟩, ?_⟩
  · exact (grows_modifyType m'' _ _).id_eq.trans hadds.id_eq
  · rw [toList_modifyType hadds.id_eq.symm, hadds.types_eq, toList_addType, List.append_assoc]
    show (m.types.toList ++ t :: new).modify m.types.size _ = _
    rw [← Arena.length_toList, modify_behind]
  · rw [topLevel_modifyType, hadds.topLevel_eq, topLevel_addType hlt, List.append_assoc, hid,
      size_addType]
    exact congrArg _ (declaredIn_append [t] new).symm
  · refine .cons hb rfl ⟨hhome, ho, ?_, ha⟩ hforest
    rw [hn, hroots]
  · -- nothing of what is nested in the type is declared where the type is
    have hrest : declaredIn m.id t.declaringType (m.types.size + 1) new = [] := by
      refine hforest.declaredIn_other (fun h => ?_) fun id hid => .inl ?_
      · exact absurd (hb _ h.symm) (Nat.lt_irrefl _)
      · exact Nat.lt_succ_of_lt (hb id hid)
    rw [declaredIn, if_pos rfl, hrest]

end

end Module

end MiddleEnd
