/-
  Fresh modules, as lowering leaves them. Their code is not bound to members, there are no contracts
  yet, and every type or accessor that they refer to is one of their own. A universe of fresh
  modules is closed (`Universe.closed_of_fresh`). A module stays fresh when a type without members
  is added to it, and when a type gets its members.
-/
import MiddleEnd.Proofs.Universe.Closed

namespace MiddleEnd

/-! ## Accessors -/

/-- Members that start at a position of a type hold the accessors of their properties. -/
def AccessorsAt (owner : TypeId) (position : Nat) (members : List Member) : Prop :=
  ∀ member ∈ members, ∀ property, member.property? = some property → ∀ ref,
    property.getter = some ref ∨ property.setter = some ref →
    ref.type = owner ∧ ∃ i accessor, ref.index = position + i ∧ members[i]? = some accessor ∧
      accessor.method?.isSome

theorem AccessorsAt.append {owner : TypeId} {position : Nat} {first rest : List Member}
    (hf : AccessorsAt owner position first)
    (hr : AccessorsAt owner (position + first.length) rest) :
    AccessorsAt owner position (first ++ rest) := by
  intro member hm property hp ref href
  rcases List.mem_append.mp hm with hm | hm
  · obtain ⟨howner, i, accessor, hi, hat, hmethod⟩ := hf member hm property hp ref href
    refine ⟨howner, i, accessor, hi, ?_, hmethod⟩
    obtain ⟨hlt, -⟩ := List.getElem?_eq_some_iff.mp hat
    rw [List.getElem?_append_left hlt, hat]
  · obtain ⟨howner, i, accessor, hi, hat, hmethod⟩ := hr member hm property hp ref href
    refine ⟨howner, first.length + i, accessor, by omega, ?_, hmethod⟩
    rw [List.getElem?_append_right (by omega), Nat.add_sub_cancel_left, hat]

theorem AccessorsAt.of_none {owner : TypeId} {position : Nat} {member : Member}
    (h : member.property? = none) : AccessorsAt owner position [member] := by
  intro m hm property hp
  rw [List.mem_singleton.mp hm, h] at hp
  cases hp

theorem AccessorsAt.nil {owner : TypeId} {position : Nat} : AccessorsAt owner position [] :=
  fun _ hm => absurd hm List.not_mem_nil

/-! ## Members, types and modules -/

/-- Code that is unbound; the type that is nested, if the member is one, is in `has`. -/
def MemberKind.Fresh (has : TypeId → Prop) : MemberKind → Prop
  | .field f => MemberFree (f.type.exprs true)
  | .method m => MemberFree (m.returnType.exprs true) ∧
    ∀ body, m.body = some body → MemberFree (body.block.exprs true)
  | .nestedType id => has id
  | .property _ | .event _ | .snippet => True

theorem MemberKind.Fresh.mono {has has' : TypeId → Prop} {kind : MemberKind} (h : kind.Fresh has)
    (hh : ∀ id, has id → has' id) : kind.Fresh has' := by
  cases kind with
  | nestedType id => exact hh id h
  | _ => exact h

structure Member.Fresh (has : TypeId → Prop) (m : Member) : Prop where
  owner : has m.declaringType
  kind : m.kind.Fresh has

section

variable {has has' : TypeId → Prop} {m : Member}

theorem Member.Fresh.mono (h : m.Fresh has) (hh : ∀ id, has id → has' id) : m.Fresh has' :=
  ⟨hh _ h.owner, h.kind.mono hh⟩

theorem Member.Fresh.field (h : m.Fresh has) {field : Field} (hf : m.field? = some field) :
    MemberFree (field.type.exprs true) := by
  have hkind := h.kind
  unfold Member.field? at hf
  split at hf
  · rename_i found hk
    obtain rfl := Option.some.inj hf
    rw [hk] at hkind
    exact hkind
  · cases hf

theorem Member.Fresh.method (h : m.Fresh has) {method : Method} (hm : m.method? = some method) :
    MemberFree (method.returnType.exprs true) ∧
      ∀ body, method.body = some body → MemberFree (body.block.exprs true) := by
  have hkind := h.kind
  unfold Member.method? at hm
  split at hm
  · rename_i found hk
    obtain rfl := Option.some.inj hm
    rw [hk] at hkind
    exact hkind
  · cases hm

end

/-- The type that `id` names, with fresh members. -/
structure TypeNode.Fresh (has : TypeId → Prop) (id : TypeId) (t : TypeNode) : Prop where
  outer : ∀ {outer}, t.declaringType = some outer → has outer
  members : ∀ m ∈ t.members, m.Fresh has
  accessors : AccessorsAt id 0 t.members
  contract : t.contract = none

theorem TypeNode.Fresh.mono {has has' : TypeId → Prop} {id : TypeId} {t : TypeNode}
    (h : t.Fresh has id) (hh : ∀ id, has id → has' id) : t.Fresh has' id where
  outer := fun ho => hh _ (h.outer ho)
  members := fun m hm => (h.members m hm).mono hh
  accessors := h.accessors
  contract := h.contract

namespace Module

def HasType (m : Module) (id : TypeId) : Prop := id.module = m.id ∧ id.index.index < m.types.size

def Fresh (m : Module) : Prop :=
  ∀ (i : Nat) (t : TypeNode), m.types.items[i]? = some t → t.Fresh m.HasType ⟨m.id, ⟨i⟩⟩

/-- The same module with more types. -/
structure Grows (m m' : Module) : Prop where
  id_eq : m'.id = m.id
  size_le : m.types.size ≤ m'.types.size

variable {m m' m'' : Module}

theorem Grows.refl (m : Module) : m.Grows m := ⟨rfl, Nat.le_refl _⟩

theorem Grows.trans (h : m.Grows m') (h' : m'.Grows m'') : m.Grows m'' :=
  ⟨h'.id_eq.trans h.id_eq, Nat.le_trans h.size_le h'.size_le⟩

theorem Grows.hasType (h : m.Grows m') {id : TypeId} (ht : m.HasType id) : m'.HasType id :=
  ⟨ht.1.trans h.id_eq.symm, Nat.lt_of_lt_of_le ht.2 h.size_le⟩

/-! ## Growth -/

theorem grows_addType (m : Module) (t : TypeNode) : m.Grows (m.addType t).1 := by
  refine ⟨rfl, ?_⟩
  show m.types.items.size ≤ (m.types.items.push t).size
  rw [Array.size_push]
  omega

/-- Positions wrap around, but never to a position that is not taken. -/
theorem hasType_addType (m : Module) (t : TypeNode) : (m.addType t).1.HasType (m.addType t).2 := by
  refine ⟨rfl, ?_⟩
  show Index.wrap m.types.items.size < (m.types.items.push t).size
  have wrapped : Index.wrap m.types.items.size ≤ m.types.items.size := Nat.mod_le _ _
  rw [Array.size_push]
  omega

theorem Fresh.addType (h : m.Fresh) {t : TypeNode}
    (ho : ∀ outer, t.declaringType = some outer → m.HasType outer) (hm : t.members = [])
    (hc : t.contract = none) : (m.addType t).1.Fresh := by
  intro i node hi
  have grows := grows_addType m t
  have hpush : (m.types.items.push t)[i]? = some node := hi
  rw [Array.getElem?_push] at hpush
  split at hpush
  · obtain rfl := Option.some.inj hpush
    refine ⟨fun houter => grows.hasType (ho _ houter), ?_, ?_, hc⟩
    · rw [hm]
      exact fun _ hmem => absurd hmem List.not_mem_nil
    · rw [hm]
      exact .nil
  · exact (h i node hpush).mono fun _ => grows.hasType

theorem grows_modifyType (m : Module) (id : TypeId) (f : TypeNode → TypeNode) :
    m.Grows (m.modifyType id f) := by
  unfold modifyType
  split
  · exact ⟨rfl, by simp [Arena.modify, Arena.size]⟩
  · exact .refl m

theorem Fresh.setMembers (h : m.Fresh) {id : TypeId} {members : List Member}
    (hm : ∀ x ∈ members, x.Fresh m.HasType) (ha : AccessorsAt id 0 members) :
    (m.modifyType id fun t => { t with members }).Fresh := by
  intro i node hi
  have grows := grows_modifyType m id fun t => { t with members }
  refine TypeNode.Fresh.mono ?_ fun _ => grows.hasType
  rw [grows.id_eq]
  unfold modifyType at hi
  split at hi
  · rename_i hmodule
    have hmodify : (m.types.items.modify id.index.index fun t => { t with members })[i]? =
        some node := hi
    rw [Array.getElem?_modify] at hmodify
    split at hmodify
    · -- the type that gets the members is the one that its accessors name
      rename_i hindex
      obtain ⟨before, hbefore, rfl⟩ := Option.map_eq_some_iff.mp hmodify
      have hid : (⟨m.id, ⟨i⟩⟩ : TypeId) = id := by rw [← hmodule, ← hindex]
      have hfresh := h i before hbefore
      rw [hid] at hfresh ⊢
      exact ⟨hfresh.outer, hm, ha, hfresh.contract⟩
    · exact h i node hmodify
  · exact h i node hi

end Module

/-! ## Universes of fresh modules -/

namespace Universe

variable {u : Universe}

/-- Every module is fresh and stands at its own position. -/
def Fresh (u : Universe) : Prop := ∀ id m, u.module? id = some m → m.id = id ∧ m.Fresh

theorem hasType_of_module (h : u.Fresh) {mid : ModuleId} {m : Module}
    (hm : u.module? mid = some m) {id : TypeId} (ht : m.HasType id) : u.HasType id := by
  obtain ⟨hid, hlt⟩ := ht
  obtain ⟨hmid, -⟩ := h mid m hm
  have hmodule : u.module? id.module = some m := by rw [hid, hmid, hm]
  refine ⟨m.types.items[id.index.index], ?_⟩
  simp only [type?, hmodule, Option.bind_eq_bind, Option.bind_some, Module.type?, if_pos hid]
  exact Array.getElem?_eq_getElem hlt

theorem fresh_of_type? (h : u.Fresh) {id : TypeId} {t : TypeNode} (ht : u.type? id = some t) :
    t.Fresh u.HasType id := by
  obtain ⟨m, hm, ht⟩ := Option.bind_eq_some_iff.mp ht
  obtain ⟨hmid, hfresh⟩ := h id.module m hm
  unfold Module.type? at ht
  split at ht
  · have hid : (⟨m.id, ⟨id.index.index⟩⟩ : TypeId) = id := by rw [hmid]
    rw [← hid]
    exact (hfresh id.index.index t ht).mono fun _ => hasType_of_module h hm
  · cases ht

theorem fresh_of_member (h : u.Fresh) {ref : MemberRef} {member : Member}
    (hm : u.member ref = .ok member) : member.Fresh u.HasType := by
  obtain ⟨t, ht, hat⟩ := member_eq_ok.mp hm
  exact (fresh_of_type? h ht).members member (List.mem_of_getElem? hat)

theorem closed_of_fresh (h : u.Fresh) : u.Closed where
  outer := fun ht ho => (fresh_of_type? h ht).outer ho
  owner := fun hm => (fresh_of_member h hm).owner
  nested := by
    intro ref member id hm hk
    have hkind := (fresh_of_member h hm).kind
    rw [hk] at hkind
    exact hkind
  accessors := by
    intro ref member property accessor hm hp ha
    obtain ⟨t, ht, hat⟩ := member_eq_ok.mp hm
    obtain ⟨htype, i, found, hi, hfound, hmethod⟩ :=
      (fresh_of_type? h ht).accessors member (List.mem_of_getElem? hat) property hp accessor ha
    rw [Nat.zero_add] at hi
    obtain ⟨method, hmethod⟩ := Option.isSome_iff_exists.mp hmethod
    refine ⟨method, method_eq_ok.mpr ⟨found, member_eq_ok.mpr ⟨t, ?_, ?_⟩, hmethod⟩⟩
    · rw [htype, ht]
    · rw [hi, hfound]
  fieldType := fun hm hf => ((fresh_of_member h hm).field hf).mono fun _ => False.elim
  returnType := by
    intro ref method hm
    obtain ⟨member, hmember, hmethod⟩ := method_eq_ok.mp hm
    exact ((fresh_of_member h hmember).method hmethod).1.mono fun _ => False.elim
  contracts := by
    intro id t contract ref ht hc
    rw [(fresh_of_type? h ht).contract] at hc
    cases hc
  bodies := by
    intro ref method body hm hb
    obtain ⟨member, hmember, hmethod⟩ := method_eq_ok.mp hm
    exact (((fresh_of_member h hmember).method hmethod).2 body hb).mono fun _ => False.elim

end Universe

end MiddleEnd
