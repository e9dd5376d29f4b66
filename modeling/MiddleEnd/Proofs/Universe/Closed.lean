/-
  Universes without dangling references. In a closed universe every type and member that is named
  by another one, by a contract or in a body is there.

  Passes change little of a universe: bodies, the preconditions inferred for methods, and contracts.
  The rest is its layout. Universes of one layout have the same types and members, so whatever keeps
  the layout also keeps a universe closed, as long as the new bodies and contracts name only what is
  there (`Closed.of_layout`).
-/
import MiddleEnd.Proofs.Code.Occurrence
import MiddleEnd.Proofs.Universe.Reach

namespace MiddleEnd

/-- A method without what passes change. -/
def Method.skeleton (m : Method) : Method := { m with body := none, implicitPreconditions := [] }

def Member.skeleton (m : Member) : Member := m.modifyMethod Method.skeleton

def TypeNode.skeleton (t : TypeNode) : TypeNode :=
  { t with members := t.members.map Member.skeleton, contract := none }

/-- What passes do not change. -/
def Universe.layout (u : Universe) (id : TypeId) : Option TypeNode :=
  (u.type? id).map TypeNode.skeleton

/-! ## Members of one skeleton -/

section

variable {m m' : Member}

theorem Member.declaringType_of_skeleton (h : m'.skeleton = m.skeleton) :
    m'.declaringType = m.declaringType := by
  have keep (x : Member) : x.skeleton.declaringType = x.declaringType := by
    obtain ⟨name, declaringType, attributes, kind, source⟩ := x
    cases kind <;> rfl
  rw [← keep m', h, keep m]

theorem Member.field?_of_skeleton (h : m'.skeleton = m.skeleton) : m'.field? = m.field? := by
  have keep (x : Member) : x.skeleton.field? = x.field? := by
    obtain ⟨name, declaringType, attributes, kind, source⟩ := x
    cases kind <;> rfl
  rw [← keep m', h, keep m]

theorem Member.property?_of_skeleton (h : m'.skeleton = m.skeleton) :
    m'.property? = m.property? := by
  have keep (x : Member) : x.skeleton.property? = x.property? := by
    obtain ⟨name, declaringType, attributes, kind, source⟩ := x
    cases kind <;> rfl
  rw [← keep m', h, keep m]

theorem Member.nestedType_of_skeleton (h : m'.skeleton = m.skeleton) {id : TypeId}
    (hm : m'.kind = .nestedType id) : m.kind = .nestedType id := by
  obtain ⟨name, declaringType, attributes, kind, source⟩ := m
  obtain ⟨name', declaringType', attributes', kind', source'⟩ := m'
  subst hm
  cases kind <;> simp_all [Member.skeleton, Member.modifyMethod]

theorem Member.method?_skeleton (x : Member) : x.skeleton.method? = x.method?.map Method.skeleton :=
  Member.method?_modifyMethod _ x

end

namespace Universe

/-! ## Universes of one layout -/

section

variable {u u' : Universe} (h : u'.layout = u.layout)

include h

theorem type?_of_layout {id : TypeId} {node' : TypeNode} (hn : u'.type? id = some node') :
    ∃ node, u.type? id = some node ∧ node'.skeleton = node.skeleton := by
  have hid := congrFun h id
  rw [layout, layout, hn, Option.map_some] at hid
  obtain ⟨node, hnode, hskeleton⟩ := Option.map_eq_some_iff.mp hid.symm
  exact ⟨node, hnode, hskeleton.symm⟩

theorem member_of_layout {ref : MemberRef} {m' : Member} (hm : u'.member ref = .ok m') :
    ∃ m, u.member ref = .ok m ∧ m'.skeleton = m.skeleton := by
  obtain ⟨node', hn', hm'⟩ := member_eq_ok.mp hm
  obtain ⟨node, hn, hskeleton⟩ := type?_of_layout h hn'
  have hmembers : node'.members.map Member.skeleton = node.members.map Member.skeleton :=
    congrArg TypeNode.members hskeleton
  have hat : (node.members.map Member.skeleton)[ref.index]? = some m'.skeleton := by
    rw [← hmembers, List.getElem?_map, hm', Option.map_some]
  rw [List.getElem?_map] at hat
  obtain ⟨m, hmem, hskel⟩ := Option.map_eq_some_iff.mp hat
  exact ⟨m, member_eq_ok.mpr ⟨node, hn, hmem⟩, hskel.symm⟩

theorem method_of_layout {ref : MemberRef} {f' : Method} (hf : u'.method ref = .ok f') :
    ∃ f, u.method ref = .ok f ∧ f'.skeleton = f.skeleton := by
  obtain ⟨m', hm', hf'⟩ := method_eq_ok.mp hf
  obtain ⟨m, hm, hskeleton⟩ := member_of_layout h hm'
  have hmethod : m.skeleton.method? = some f'.skeleton := by
    rw [← hskeleton, Member.method?_skeleton, hf', Option.map_some]
  rw [Member.method?_skeleton] at hmethod
  obtain ⟨f, hfm, hskel⟩ := Option.map_eq_some_iff.mp hmethod
  exact ⟨f, method_eq_ok.mpr ⟨m, hm, hfm⟩, hskel.symm⟩

theorem hasType_of_layout {id : TypeId} (ht : u'.HasType id) : u.HasType id := by
  obtain ⟨node', hn'⟩ := ht
  obtain ⟨node, hn, -⟩ := type?_of_layout h hn'
  exact ⟨node, hn⟩

theorem has_of_layout {ref : MemberRef} (hr : u'.Has ref) : u.Has ref := by
  obtain ⟨m', hm'⟩ := hr
  obtain ⟨m, hm, -⟩ := member_of_layout h hm'
  exact ⟨m, hm⟩

theorem isMethod_of_layout {ref : MemberRef} (hr : u'.IsMethod ref) : u.IsMethod ref := by
  obtain ⟨f', hf'⟩ := hr
  obtain ⟨f, hf, -⟩ := method_of_layout h hf'
  exact ⟨f, hf⟩

end

/-! ## Closed universes -/

/-- The references of a contract are members of the universe. -/
def ContractsClosed (u : Universe) : Prop :=
  ∀ {id node contract ref}, u.type? id = some node → node.contract = some contract →
    contract.getter = some ref ∨ contract.field = some ref → u.Has ref

/-- The members that bodies name are members of the universe, also those inside types. -/
def BodiesClosed (u : Universe) : Prop :=
  ∀ {ref method body}, u.method ref = .ok method → method.body = some body →
    NamesOnly u.Has (body.block.exprs true)

/-- Nothing that is named is missing. -/
structure Closed (u : Universe) : Prop where
  outer : ∀ {id node outer}, u.type? id = some node → node.declaringType = some outer →
    u.HasType outer
  owner : ∀ {ref member}, u.member ref = .ok member → u.HasType member.declaringType
  nested : ∀ {ref member id}, u.member ref = .ok member → member.kind = .nestedType id →
    u.HasType id
  accessors : ∀ {ref member property accessor}, u.member ref = .ok member →
    member.property? = some property →
    property.getter = some accessor ∨ property.setter = some accessor → u.IsMethod accessor
  fieldType : ∀ {ref member field}, u.member ref = .ok member → member.field? = some field →
    NamesOnly u.Has (field.type.exprs true)
  returnType : ∀ {ref method}, u.method ref = .ok method →
    NamesOnly u.Has (method.returnType.exprs true)
  contracts : u.ContractsClosed
  bodies : u.BodiesClosed

/-- Only bodies and contracts have to be looked at again. -/
theorem Closed.of_layout {u u' : Universe} (h : u.Closed) (hl : u'.layout = u.layout)
    (hc : u'.ContractsClosed) (hb : u'.BodiesClosed) : u'.Closed where
  outer := by
    intro id node' outer hn' ho
    obtain ⟨node, hn, hskeleton⟩ := type?_of_layout hl hn'
    have ho : node.declaringType = some outer := by
      rw [← ho]; exact (congrArg TypeNode.declaringType hskeleton).symm
    exact hasType_of_layout hl.symm (h.outer hn ho)
  owner := by
    intro ref m' hm'
    obtain ⟨m, hm, hskeleton⟩ := member_of_layout hl hm'
    rw [Member.declaringType_of_skeleton hskeleton]
    exact hasType_of_layout hl.symm (h.owner hm)
  nested := by
    intro ref m' id hm' hn
    obtain ⟨m, hm, hskeleton⟩ := member_of_layout hl hm'
    exact hasType_of_layout hl.symm (h.nested hm (Member.nestedType_of_skeleton hskeleton hn))
  accessors := by
    intro ref m' property accessor hm' hp ha
    obtain ⟨m, hm, hskeleton⟩ := member_of_layout hl hm'
    rw [Member.property?_of_skeleton hskeleton] at hp
    exact isMethod_of_layout hl.symm (h.accessors hm hp ha)
  fieldType := by
    intro ref m' field hm' hf
    obtain ⟨m, hm, hskeleton⟩ := member_of_layout hl hm'
    rw [Member.field?_of_skeleton hskeleton] at hf
    exact (h.fieldType hm hf).mono fun _ => has_of_layout hl.symm
  returnType := by
    intro ref f' hf'
    obtain ⟨f, hf, hskeleton⟩ := method_of_layout hl hf'
    have hr : f'.skeleton.returnType = f.skeleton.returnType := by rw [hskeleton]
    rw [show f'.returnType = f.returnType from hr]
    exact (h.returnType hf).mono fun _ => has_of_layout hl.symm
  contracts := hc
  bodies := hb

/-! ## Changes that keep the layout -/

section

variable {u : Universe} {ref : MemberRef} {f : Method → Method}

theorem skeleton_modifyMethod (hf : ∀ m, (f m).skeleton = m.skeleton) (m : Member) :
    (m.modifyMethod f).skeleton = m.skeleton := by
  obtain ⟨name, declaringType, attributes, kind, source⟩ := m
  cases kind with
  | method method => simp [Member.skeleton, Member.modifyMethod, hf]
  | _ => rfl

theorem layout_modifyMethod (hf : ∀ m, (f m).skeleton = m.skeleton) :
    (u.modifyMethod ref f).layout = u.layout := by
  funext id
  rw [layout, layout, modifyMethod, modifyMember, type?_modifyType]
  split
  · rw [Option.map_map]
    congr 1
    funext t
    have hmembers : (t.members.modify ref.index (Member.modifyMethod f)).map Member.skeleton =
        t.members.map Member.skeleton := by
      apply List.ext_getElem?
      intro i
      rw [List.getElem?_map, List.getElem?_map, List.getElem?_modify]
      split <;> simp [Option.map_map, Function.comp_def, skeleton_modifyMethod hf]
    simp [TypeNode.skeleton, hmembers]
  · rfl

/-- A changed method keeps a universe closed if its new body does. -/
theorem Closed.modifyMethod (h : u.Closed) (hf : ∀ m, (f m).skeleton = m.skeleton)
    (hb : ∀ method body, u.method ref = .ok method → (f method).body = some body →
      NamesOnly u.Has (body.block.exprs true)) : (u.modifyMethod ref f).Closed := by
  have hl : (u.modifyMethod ref f).layout = u.layout := layout_modifyMethod hf
  refine h.of_layout hl ?_ ?_
  · intro id node' contract target hn hc ht
    rw [Universe.modifyMethod, modifyMember, type?_modifyType] at hn
    refine has_of_layout hl.symm ?_
    split at hn
    · obtain ⟨node, hnode, rfl⟩ := Option.map_eq_some_iff.mp hn
      exact h.contracts hnode hc ht
    · exact h.contracts hn hc ht
  · intro target method body hm hbody
    refine NamesOnly.mono ?_ fun _ => has_of_layout hl.symm
    obtain ⟨before, hbefore, rfl⟩ := method_modifyMethod.mp hm
    split at hbody
    · rename_i href
      subst href
      exact hb before body hbefore hbody
    · exact h.bodies hbefore hbody

theorem layout_setContract {id : TypeId} {contract : Contract} :
    (u.modifyType id fun t => { t with contract := some contract }).layout = u.layout := by
  funext id'
  rw [layout, layout, type?_modifyType]
  split
  · rw [Option.map_map]
    rfl
  · rfl

theorem member_setContract {id : TypeId} {contract : Contract} {target : MemberRef} :
    (u.modifyType id fun t => { t with contract := some contract }).member target =
      u.member target := by
  unfold member type
  rw [type?_modifyType]
  by_cases ht : target.type = id
  · rw [if_pos ht]
    cases u.type? target.type <;> rfl
  · rw [if_neg ht]

theorem Closed.setContract (h : u.Closed) {id : TypeId} {contract : Contract}
    (hc : ∀ target, contract.getter = some target ∨ contract.field = some target →
      u.Has target) :
    (u.modifyType id fun t => { t with contract := some contract }).Closed := by
  refine h.of_layout layout_setContract ?_ ?_
  · intro id' node' contract' target hn hcontract ht
    refine has_of_layout layout_setContract.symm ?_
    rw [type?_modifyType] at hn
    split at hn
    · obtain ⟨node, -, rfl⟩ := Option.map_eq_some_iff.mp hn
      cases hcontract
      exact hc target ht
    · exact h.contracts hn hcontract ht
  · intro target method body hm hbody
    rw [Universe.method, member_setContract] at hm
    exact (h.bodies hm hbody).mono fun _ => has_of_layout layout_setContract.symm

end

/-! ## Walks through a closed universe -/

theorem Closed.hasType_of_mem_nestedTypes {u : Universe} (h : u.Closed) {id nested : TypeId}
    {node : TypeNode} (hn : u.type? id = some node) (hi : nested ∈ nestedTypes node.members) :
    u.HasType nested := by
  obtain ⟨m, hmem, hm⟩ := List.mem_filterMap.mp hi
  obtain ⟨i, hat⟩ := List.getElem?_of_mem hmem
  have hmember : u.member ⟨id, i⟩ = .ok m := member_eq_ok.mpr ⟨node, hn, hat⟩
  split at hm
  · rename_i found hkind
    obtain rfl : found = nested := Option.some.inj hm
    exact h.nested hmember hkind
  · cases hm

/-- The methods of a unit whose types are there can be listed. -/
theorem Closed.unitMethods_ok {u : Universe} (h : u.Closed) {unit : CompilationUnit}
    (ht : ∀ id ∈ unit.root.allTypes, u.HasType id) :
    ∃ refs, u.unitMethods unit = .ok refs ∧ ∀ ref ∈ refs, u.IsMethod ref := by
  have hkept : u.KeptByNesting u.HasType := by
    rintro id ⟨node, hn⟩
    exact ⟨node, hn, fun _ => h.hasType_of_mem_nestedTypes hn⟩
  obtain ⟨refs, hrefs⟩ := unitMethods_ok_of hkept ht
  exact ⟨refs, hrefs, fun _ => isMethod_of_unitMethods hrefs⟩

theorem Closed.isVisibleWithin_ok {u : Universe} (h : u.Closed) (steps : Nat) {id : TypeId}
    (ht : u.HasType id) : ∃ visible, u.isVisibleWithin steps id = .ok visible := by
  induction steps generalizing id with
  | zero => exact ⟨true, rfl⟩
  | succ steps ih =>
      obtain ⟨node, hn⟩ := ht
      simp only [isVisibleWithin, type_eq_ok.mpr hn, bind, Except.bind]
      split
      · exact ⟨false, rfl⟩
      · split
        · rename_i outer ho
          exact ih (h.outer hn ho)
        · exact ⟨true, rfl⟩

/-- Whether a method can be called from outside is known. -/
theorem Closed.isExternallyVisible_ok {u : Universe} (h : u.Closed) {ref : MemberRef}
    (hr : u.IsMethod ref) : ∃ visible, u.isExternallyVisible ref = .ok visible := by
  obtain ⟨method, hm⟩ := hr
  obtain ⟨member, hmember, -⟩ := method_eq_ok.mp hm
  obtain ⟨node, hn, -⟩ := member_eq_ok.mp hmember
  simp only [isExternallyVisible, hm, bind, Except.bind]
  split
  · exact ⟨false, rfl⟩
  · exact h.isVisibleWithin_ok _ ⟨node, hn⟩

end Universe

end MiddleEnd
