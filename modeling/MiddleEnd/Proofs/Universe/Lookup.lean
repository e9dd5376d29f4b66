/-
  What it means that types, members and methods are found in a universe.
-/
import MiddleEnd.Pass.WellKnown

namespace MiddleEnd

theorem Arena.get?_modify {ι α : Type} [Index ι] (a : Arena ι α) (i j : ι) (f : α → α) :
    (a.modify i f).get? j =
      if Index.toNat i = Index.toNat j then (a.get? j).map f else a.get? j := by
  unfold Arena.modify Arena.get?
  rw [Array.getElem?_modify]

theorem Member.method?_modifyMethod (f : Method → Method) (m : Member) :
    (m.modifyMethod f).method? = m.method?.map f := by
  obtain ⟨name, declaringType, attributes, kind, source⟩ := m
  cases kind <;> rfl

namespace Universe

variable {u : Universe}

/-! ## Finding -/

theorem type_eq_ok {id : TypeId} {node : TypeNode} :
    u.type id = .ok node ↔ u.type? id = some node := by
  unfold Universe.type
  split <;> simp_all

theorem member_eq_ok {ref : MemberRef} {member : Member} :
    u.member ref = .ok member ↔
      ∃ node, u.type? ref.type = some node ∧ node.members[ref.index]? = some member := by
  unfold Universe.member Universe.type
  rcases u.type? ref.type with _ | node
  · simp [bind, Except.bind]
  · rcases h : node.members[ref.index]? with _ | m <;>
      simp [bind, Except.bind, pure, Except.pure, throw, throwThe, MonadExceptOf.throw, h]

theorem method_eq_ok {ref : MemberRef} {method : Method} :
    u.method ref = .ok method ↔
      ∃ member, u.member ref = .ok member ∧ member.method? = some method := by
  unfold Universe.method
  rcases u.member ref with e | member
  · simp [bind, Except.bind]
  · rcases h : member.method? with _ | m <;>
      simp [bind, Except.bind, pure, Except.pure, throw, throwThe, MonadExceptOf.throw, h]

def HasType (u : Universe) (id : TypeId) : Prop := ∃ node, u.type? id = some node

/-- The member is there. -/
def Has (u : Universe) (ref : MemberRef) : Prop := ∃ member, u.member ref = .ok member

def IsMethod (u : Universe) (ref : MemberRef) : Prop := ∃ method, u.method ref = .ok method

/-- What is found as a method is one. -/
theorem isMethod_of_findMethod? {type : TypeId} {name : String} {ref : MemberRef}
    (h : u.findMethod? type name = some ref) : u.IsMethod ref := by
  obtain ⟨node, hn, h⟩ := Option.bind_eq_some_iff.mp h
  obtain ⟨i, hi, h⟩ := Option.bind_eq_some_iff.mp h
  obtain rfl : (⟨type, i⟩ : MemberRef) = ref := Option.some.inj h
  obtain ⟨hlt, hp, -⟩ := List.findIdx?_eq_some_iff_getElem.mp hi
  rw [Bool.and_eq_true, Option.isSome_iff_exists] at hp
  obtain ⟨method, hm⟩ := hp.2
  exact ⟨method, method_eq_ok.mpr
    ⟨_, member_eq_ok.mpr ⟨node, hn, List.getElem?_eq_getElem hlt⟩, hm⟩⟩

/-- A type that is found stands in one of the modules. -/
theorem mem_types_of_type {id : TypeId} {node : TypeNode} (h : u.type id = .ok node) :
    ∃ m ∈ u.modules.toList, node ∈ m.types.toList := by
  obtain ⟨m, hm, h⟩ := Option.bind_eq_some_iff.mp (type_eq_ok.mp h)
  refine ⟨m, Array.mem_toList_iff.mpr (Array.mem_of_getElem? hm), ?_⟩
  unfold Module.type? at h
  split at h
  · exact Array.mem_toList_iff.mpr (Array.mem_of_getElem? h)
  · cases h

/-! ## Changing -/

theorem type?_modifyType (u : Universe) (id id' : TypeId) (f : TypeNode → TypeNode) :
    (u.modifyType id f).type? id' =
      if id' = id then (u.type? id').map f else u.type? id' := by
  obtain ⟨⟨module⟩, ⟨index⟩⟩ := id
  obtain ⟨⟨module'⟩, ⟨index'⟩⟩ := id'
  show ((u.modules.modify ⟨module⟩ _).get? ⟨module'⟩).bind _ = _
  rw [Arena.get?_modify]
  by_cases hm : module = module'
  · subst hm
    rw [if_pos rfl]
    rcases hu : u.modules.get? ⟨module⟩ with _ | m
    · simp [Universe.type?, Universe.module?, hu]
    · have hfound : u.type? ⟨⟨module⟩, ⟨index'⟩⟩ = m.type? ⟨⟨module⟩, ⟨index'⟩⟩ := by
        simp [Universe.type?, Universe.module?, hu]
      rw [hfound]
      show (m.modifyType _ f).type? _ = _
      unfold Module.modifyType Module.type?
      by_cases hid : (⟨module⟩ : ModuleId) = m.id
      · rw [if_pos hid, if_pos hid, if_pos hid, Arena.get?_modify]
        simp [Index.toNat, eq_comm]
      · simp [hid]
  · have hne : module' ≠ module := fun h => hm h.symm
    simp [Universe.type?, Universe.module?, Index.toNat, hm, hne]

theorem member_modifyMember {ref ref' : MemberRef} {f : Member → Member} {member : Member} :
    (u.modifyMember ref f).member ref' = .ok member ↔
      ∃ before, u.member ref' = .ok before ∧
        member = if ref' = ref then f before else before := by
  obtain ⟨type, index⟩ := ref
  obtain ⟨type', index'⟩ := ref'
  simp only [member_eq_ok, Universe.modifyMember, type?_modifyType]
  rcases hn : u.type? type' with _ | node
  · simp
  · by_cases ht : type' = type
    · by_cases hi : index' = index
      · subst ht hi
        rcases hb : node.members[index']? with _ | before <;> simp [hb, eq_comm]
      · have hi' : index ≠ index' := fun h => hi h.symm
        simp [ht, hi, hi']
    · simp [ht]

/-- A method after the change of one of them. -/
theorem method_modifyMethod {ref ref' : MemberRef} {f : Method → Method} {method : Method} :
    (u.modifyMethod ref f).method ref' = .ok method ↔
      ∃ before, u.method ref' = .ok before ∧
        method = if ref' = ref then f before else before := by
  simp only [method_eq_ok, Universe.modifyMethod, member_modifyMember]
  constructor
  · rintro ⟨_, ⟨member, hm, rfl⟩, hmethod⟩
    by_cases href : ref' = ref
    · rw [if_pos href, Member.method?_modifyMethod] at hmethod
      obtain ⟨before, hbefore, rfl⟩ := Option.map_eq_some_iff.mp hmethod
      exact ⟨before, ⟨member, hm, hbefore⟩, by rw [if_pos href]⟩
    · rw [if_neg href] at hmethod
      exact ⟨method, ⟨member, hm, hmethod⟩, by rw [if_neg href]⟩
  · rintro ⟨before, ⟨member, hm, hmethod⟩, rfl⟩
    refine ⟨_, ⟨member, hm, rfl⟩, ?_⟩
    by_cases href : ref' = ref
    · rw [if_pos href, if_pos href, Member.method?_modifyMethod, hmethod]
      rfl
    · rw [if_neg href, if_neg href]
      exact hmethod

end Universe

/-- The checks that a universe offers are methods of it. -/
theorem WellKnown.isMethod_of_ofUniverse {u : Universe} {w : WellKnown}
    (h : WellKnown.ofUniverse u = .ok w) :
    u.IsMethod w.checkIsReading ∧ u.IsMethod w.checkIsWriting := by
  unfold WellKnown.ofUniverse findCheck at h
  rcases hg : findGuard u with e | guard
  · simp [hg, bind, Except.bind] at h
  · rcases hr : u.findMethod? guard readingName with _ | reading
    · simp [hg, hr, bind, Except.bind] at h
    · rcases hw : u.findMethod? guard writingName with _ | writing
      · simp [hg, hr, hw, bind, Except.bind] at h
      · simp only [hg, hr, hw, bind, Except.bind, pure, Except.pure, Except.ok.injEq] at h
        subst h
        exact ⟨Universe.isMethod_of_findMethod? hr, Universe.isMethod_of_findMethod? hw⟩

end MiddleEnd
