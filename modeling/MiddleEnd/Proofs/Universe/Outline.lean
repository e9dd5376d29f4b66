/-
  The outline of a universe: all of it but the bodies of methods and the preconditions inferred for
  them. Whatever is found in a universe has the same outline as what is found in its outline, and
  the change of a method leaves the outline as it is. Changes of two methods can be made in either
  order (`modifyMethod_comm`).
-/
import MiddleEnd.Proofs.Universe.Closed
import MiddleEnd.Proofs.Universe.View

namespace MiddleEnd

/-! ## Changing two entries -/

namespace Arena

variable {ι α : Type} [Index ι]

theorem modify_comm (a : Arena ι α) {i j : ι} (h : Index.toNat i ≠ Index.toNat j) (f g : α → α) :
    (a.modify i f).modify j g = (a.modify j g).modify i f := by
  refine ext_getElem? fun k => ?_
  simp only [modify, Array.getElem?_modify]
  by_cases hi : Index.toNat i = k
  · have hj : Index.toNat j ≠ k := fun hj => h (hi.trans hj.symm)
    rw [if_neg hj, if_neg hj]
  · simp only [if_neg hi]

theorem modify_modify (a : Arena ι α) (i : ι) (f g : α → α) :
    (a.modify i f).modify i g = a.modify i fun x => g (f x) := by
  refine ext_getElem? fun k => ?_
  simp only [modify, Array.getElem?_modify]
  split
  · rw [Option.map_map]
    rfl
  · rfl

theorem modify_self (a : Arena ι α) (i : ι) : (a.modify i fun x => x) = a := by
  refine ext_getElem? fun k => ?_
  simp only [modify, Array.getElem?_modify, Option.map_id']
  split <;> rfl

end Arena

namespace Universe

variable {u : Universe}

theorem modifyType_modifyType (u : Universe) (id : TypeId) (f g : TypeNode → TypeNode) :
    (u.modifyType id f).modifyType id g = u.modifyType id fun t => g (f t) := by
  simp only [modifyType, modifyModule, Arena.modify_modify]
  congr 2
  funext m
  unfold Module.modifyType
  by_cases hid : id.module = m.id
  · simp only [if_pos hid, Arena.modify_modify]
  · simp only [if_neg hid]

theorem modifyType_comm (u : Universe) {id id' : TypeId} (h : id ≠ id')
    (f g : TypeNode → TypeNode) :
    (u.modifyType id f).modifyType id' g = (u.modifyType id' g).modifyType id f := by
  obtain ⟨module, index⟩ := id
  obtain ⟨module', index'⟩ := id'
  by_cases hm : module = module'
  · subst hm
    have hindex : Index.toNat index ≠ Index.toNat index' := fun hi =>
      h (by cases index; cases index'; cases hi; rfl)
    simp only [modifyType, modifyModule, Arena.modify_modify]
    congr 2
    funext m
    unfold Module.modifyType
    by_cases hid : module = m.id
    · simp only [if_pos hid, Arena.modify_comm m.types hindex]
    · simp only [if_neg hid]
  · have hmodule : Index.toNat module ≠ Index.toNat module' := fun hi =>
      hm (by cases module; cases module'; cases hi; rfl)
    exact congrArg Universe.mk (Arena.modify_comm u.modules hmodule _ _)

theorem modifyMember_modifyMember (u : Universe) (ref : MemberRef) (f g : Member → Member) :
    (u.modifyMember ref f).modifyMember ref g = u.modifyMember ref fun m => g (f m) := by
  simp only [modifyMember, modifyType_modifyType, List.modify_modify_eq]
  rfl

theorem modifyMember_comm (u : Universe) {ref ref' : MemberRef} (h : ref ≠ ref')
    (f g : Member → Member) :
    (u.modifyMember ref f).modifyMember ref' g = (u.modifyMember ref' g).modifyMember ref f := by
  obtain ⟨type, index⟩ := ref
  obtain ⟨type', index'⟩ := ref'
  by_cases ht : type = type'
  · subst ht
    have hi : index ≠ index' := fun hi => h (congrArg (MemberRef.mk type) hi)
    simp only [modifyMember, modifyType_modifyType]
    congr 1
    funext t
    rw [List.modify_modify_ne f g t.members hi]
  · exact modifyType_comm u ht _ _

theorem modifyMethod_modifyMethod (u : Universe) (ref : MemberRef) (f g : Method → Method) :
    (u.modifyMethod ref f).modifyMethod ref g = u.modifyMethod ref fun m => g (f m) := by
  rw [modifyMethod, modifyMethod, modifyMember_modifyMember, modifyMethod]
  congr 1
  funext m
  obtain ⟨name, declaringType, attributes, kind, source⟩ := m
  cases kind <;> rfl

theorem modifyMethod_comm (u : Universe) {ref ref' : MemberRef} (h : ref ≠ ref')
    (f g : Method → Method) :
    (u.modifyMethod ref f).modifyMethod ref' g = (u.modifyMethod ref' g).modifyMethod ref f :=
  modifyMember_comm u h _ _

end Universe

/-! ## Outlines -/

section

variable (m : Member)

theorem Member.name_skeleton : m.skeleton.name = m.name := by
  obtain ⟨name, declaringType, attributes, kind, source⟩ := m
  cases kind <;> rfl

theorem Member.declaringType_skeleton : m.skeleton.declaringType = m.declaringType := by
  obtain ⟨name, declaringType, attributes, kind, source⟩ := m
  cases kind <;> rfl

theorem Member.field?_skeleton : m.skeleton.field? = m.field? := by
  obtain ⟨name, declaringType, attributes, kind, source⟩ := m
  cases kind <;> rfl

theorem Member.isStatic_skeleton : m.skeleton.isStatic = m.isStatic := by
  obtain ⟨name, declaringType, attributes, kind, source⟩ := m
  cases kind <;> rfl

theorem Member.nested_skeleton : Universe.nestedTypes [m.skeleton] = Universe.nestedTypes [m] := by
  obtain ⟨name, declaringType, attributes, kind, source⟩ := m
  cases kind <;> rfl

theorem Member.skeleton_modifyMethod {f f' : Method → Method}
    (h : ∀ x, (f x).skeleton = f' x.skeleton) :
    (m.modifyMethod f).skeleton = m.skeleton.modifyMethod f' := by
  obtain ⟨name, declaringType, attributes, kind, source⟩ := m
  cases kind with
  | method method =>
      exact congrArg (fun x => Member.mk name declaringType attributes (.method x) source)
        (h method)
  | _ => rfl

end

def TypeNode.outline (t : TypeNode) : TypeNode :=
  { t with members := t.members.map Member.skeleton }

def Module.outline (m : Module) : Module := { m with types := m.types.map TypeNode.outline }

namespace Universe

/-- The universe without the bodies of methods and the preconditions inferred for them. -/
def outline (u : Universe) : Universe := ⟨u.modules.map Module.outline⟩

/-- As a view. -/
def outlineView : View where
  field := fun f => f
  method := Method.skeleton
  member := Member.skeleton
  type := TypeNode.outline
  module := Module.outline
  field_type := fun _ => rfl
  field_flags := fun _ => rfl
  method_kind := fun _ => rfl
  method_flags := fun _ => rfl
  method_returnType := fun _ => rfl
  method_parameters := fun _ => rfl
  method_conditionalSymbol := fun _ => rfl
  member_name := Member.name_skeleton
  member_declaringType := Member.declaringType_skeleton
  member_isStatic := Member.isStatic_skeleton
  member_field? := fun m => by rw [Member.field?_skeleton, Option.map_id']
  member_method? := Member.method?_skeleton
  member_nested := Member.nested_skeleton
  type_name := fun _ => rfl
  type_namespaceName := fun _ => rfl
  type_declaringType := fun _ => rfl
  type_flags := fun _ => rfl
  type_contract := fun _ => rfl
  type_isValueType := fun _ => rfl
  module_id := fun _ => rfl
  member_modifyMethod := fun m h => m.skeleton_modifyMethod h
  type_withMembers := fun _ _ => rfl
  module_withTypes := fun _ _ => rfl

theorem modifyMethod_self (u : Universe) (ref : MemberRef) :
    (u.modifyMethod ref fun m => m) = u := by
  have hmember : (Member.modifyMethod fun m => m) = id := by
    funext m
    obtain ⟨name, declaringType, attributes, kind, source⟩ := m
    cases kind <;> rfl
  have htype : ∀ m : Module, (m.modifyType ref.type fun t => t) = m := by
    intro m
    unfold Module.modifyType
    rw [Arena.modify_self]
    split <;> rfl
  unfold modifyMethod modifyMember modifyType modifyModule
  simp only [hmember, List.modify_id, htype, Arena.modify_self]

theorem outline_modifyMethod (u : Universe) (ref : MemberRef) {f : Method → Method}
    (hf : ∀ m, (f m).skeleton = m.skeleton) : (u.modifyMethod ref f).outline = u.outline := by
  have hview : (u.modifyMethod ref f).outline = u.outline.modifyMethod ref fun m => m :=
    outlineView.modifyMethod_view u ref hf
  rw [hview, modifyMethod_self]

theorem member_outline (u : Universe) (ref : MemberRef) :
    u.outline.member ref = (u.member ref).map Member.skeleton :=
  outlineView.member_view u ref

theorem isExternallyVisible_outline (u : Universe) (ref : MemberRef) :
    u.outline.isExternallyVisible ref = u.isExternallyVisible ref :=
  outlineView.isExternallyVisible_view u ref

end Universe

end MiddleEnd
