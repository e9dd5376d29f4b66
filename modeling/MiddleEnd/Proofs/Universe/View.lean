/-
  Views of a universe. A view changes declarations one by one and keeps the names, types, flags and
  positions in them. So whatever is found in the view of a universe is the view of what is found in
  the universe (`type_view`, `member_view`, `method_view`), and all that is worked out from names
  and flags alone comes out the same.
-/
import MiddleEnd.Pass.Contract
import MiddleEnd.Pass.Guard
import MiddleEnd.Pass.Conditional

namespace MiddleEnd

theorem Arena.ext_getElem? {ι α : Type} {a b : Arena ι α}
    (h : ∀ k : Nat, a.items[k]? = b.items[k]?) : a = b := by
  obtain ⟨as⟩ := a
  obtain ⟨bs⟩ := b
  exact congrArg Arena.mk (Array.ext_getElem? h)

theorem Arena.map_modify {ι α β : Type} [Index ι] (a : Arena ι α) (i : ι) {f : α → α} {f' : β → β}
    {view : α → β} (h : ∀ x, view (f x) = f' (view x)) :
    (a.modify i f).map view = (a.map view).modify i f' := by
  refine ext_getElem? fun k => ?_
  simp only [map, modify, Array.getElem?_map, Array.getElem?_modify]
  split
  · rw [Option.map_map, Option.map_map]
    congr 1
    exact funext h
  · rfl

/-- What becomes of each declaration, and what is kept of it. -/
structure View where
  field : Field → Field
  method : Method → Method
  member : Member → Member
  type : TypeNode → TypeNode
  module : Module → Module
  field_type : ∀ f, (field f).type = f.type
  field_flags : ∀ f, (field f).flags = f.flags
  method_kind : ∀ m, (method m).kind = m.kind
  method_flags : ∀ m, (method m).flags = m.flags
  method_returnType : ∀ m, (method m).returnType = m.returnType
  method_parameters : ∀ m, (method m).parameters.isEmpty = m.parameters.isEmpty
  method_conditionalSymbol : ∀ m, (method m).conditionalSymbol = m.conditionalSymbol
  member_name : ∀ m, (member m).name = m.name
  member_declaringType : ∀ m, (member m).declaringType = m.declaringType
  member_isStatic : ∀ m, (member m).isStatic = m.isStatic
  member_field? : ∀ m, (member m).field? = m.field?.map field
  member_method? : ∀ m, (member m).method? = m.method?.map method
  member_nested : ∀ m, Universe.nestedTypes [member m] = Universe.nestedTypes [m]
  type_name : ∀ t, (type t).name = t.name
  type_namespaceName : ∀ t, (type t).namespaceName = t.namespaceName
  type_declaringType : ∀ t, (type t).declaringType = t.declaringType
  type_flags : ∀ t, (type t).flags = t.flags
  type_contract : ∀ t, (type t).contract = t.contract
  type_isValueType : ∀ t, (type t).isValueType = t.isValueType
  module_id : ∀ m, (module m).id = m.id
  member_modifyMethod : ∀ {f f'} m, (∀ x, method (f x) = f' (method x)) →
    member (m.modifyMethod f) = (member m).modifyMethod f'
  type_withMembers : ∀ t members,
    type { t with members } = { type t with members := members.map member }
  module_withTypes : ∀ m types,
    module { m with types } = { module m with types := types.map type }

namespace View

variable (v : View)

theorem type_members (t : TypeNode) : (v.type t).members = t.members.map v.member :=
  congrArg TypeNode.members (v.type_withMembers t t.members)

theorem module_types (m : Module) : (v.module m).types = m.types.map v.type :=
  congrArg Module.types (v.module_withTypes m m.types)

def on (u : Universe) : Universe := ⟨u.modules.map v.module⟩

variable (u : Universe)

/-! ## Finding -/

theorem type?_view (id : TypeId) : (v.on u).type? id = (u.type? id).map v.type := by
  unfold Universe.type? Universe.module? View.on Arena.map Arena.get?
  rw [Array.getElem?_map]
  rcases u.modules.items[Index.toNat id.module]? with _ | m
  · rfl
  · show Module.type? (v.module m) id = (m.type? id).map v.type
    unfold Module.type?
    rw [v.module_id, v.module_types]
    split
    · unfold Arena.map Arena.get?
      rw [Array.getElem?_map]
    · rfl

theorem type_view (id : TypeId) : (v.on u).type id = (u.type id).map v.type := by
  unfold Universe.type
  rw [type?_view]
  cases u.type? id <;> rfl

theorem member_view (ref : MemberRef) : (v.on u).member ref = (u.member ref).map v.member := by
  unfold Universe.member
  rw [type_view]
  rcases u.type ref.type with e | node
  · rfl
  · simp only [Except.map, bind, Except.bind, v.type_members, List.getElem?_map]
    rcases node.members[ref.index]? with _ | m <;> rfl

theorem method_view (ref : MemberRef) : (v.on u).method ref = (u.method ref).map v.method := by
  unfold Universe.method
  rw [member_view]
  rcases u.member ref with e | m
  · rfl
  · simp only [Except.map, bind, Except.bind, v.member_method?]
    rcases m.method? with _ | method <;> rfl

theorem findType?_view (qualified : String) :
    (v.on u).findType? qualified = u.findType? qualified := by
  have hmodule : ∀ (m : Module) (ns name : String),
      (v.module m).findType? ns name = m.findType? ns name := by
    intro m ns name
    unfold Module.findType?
    rw [v.module_id, v.module_types]
    simp only [Arena.enumerate, Arena.toList, Arena.map, Array.toList_map, List.zipIdx_map,
      List.map_map, List.find?_map, Option.map_map, Function.comp_def, Prod.map, id_eq,
      v.type_declaringType, v.type_namespaceName, v.type_name]
  unfold Universe.findType? View.on
  simp only [Arena.toList, Arena.map, Array.toList_map, List.findSome?_map, Function.comp_def,
    hmodule]

theorem findMember?_view (type : TypeId) (name : String) :
    (v.on u).findMember? type name = u.findMember? type name := by
  unfold Universe.findMember?
  rw [type?_view]
  rcases u.type? type with _ | node
  · rfl
  · simp only [Option.map_some, bind, Option.bind_some, TypeNode.memberIndex?, v.type_members,
      List.findIdx?_map, Function.comp_def, v.member_name]

theorem findMethod?_view (type : TypeId) (name : String) :
    (v.on u).findMethod? type name = u.findMethod? type name := by
  unfold Universe.findMethod?
  rw [type?_view]
  rcases u.type? type with _ | node
  · rfl
  · simp only [Option.map_some, bind, Option.bind_some, TypeNode.methodIndex?, v.type_members,
      List.findIdx?_map, Function.comp_def, v.member_name, v.member_method?, Option.isSome_map]

/-! ## Which methods there are, and who can see them -/

theorem methodPositions_view (members : List Member) :
    Universe.methodPositions (members.map v.member) = Universe.methodPositions members := by
  unfold Universe.methodPositions
  simp only [List.zipIdx_map, List.filterMap_map, Function.comp_def, Prod.map, id_eq,
    v.member_method?, Option.isSome_map]

theorem nestedTypes_view (members : List Member) :
    Universe.nestedTypes (members.map v.member) = Universe.nestedTypes members := by
  have hcons : ∀ (m : Member) (ms : List Member),
      Universe.nestedTypes (m :: ms) = Universe.nestedTypes [m] ++ Universe.nestedTypes ms :=
    fun m ms => by rw [Universe.nestedTypes, ← List.singleton_append, List.filterMap_append]; rfl
  induction members with
  | nil => rfl
  | cons m ms ih => rw [List.map_cons, hcons, hcons m, v.member_nested, ih]

theorem typeMethods_view (levels : Nat) (id : TypeId) :
    (v.on u).typeMethods levels id = u.typeMethods levels id := by
  induction levels generalizing id with
  | zero => rfl
  | succ levels ih =>
      rw [Universe.typeMethods, Universe.typeMethods, type_view, funext ih]
      rcases u.type id with e | node
      · rfl
      · simp only [Except.map, bind, Except.bind, v.type_members, methodPositions_view,
          nestedTypes_view]

theorem typeCount_view : (v.on u).typeCount = u.typeCount := by
  unfold Universe.typeCount View.on Arena.map Arena.toList
  rw [Array.toList_map, List.foldl_map]
  congr 1
  funext n m
  rw [v.module_types]
  simp [Arena.map, Arena.size]

theorem isVisibleWithin_view (steps : Nat) (id : TypeId) :
    (v.on u).isVisibleWithin steps id = u.isVisibleWithin steps id := by
  induction steps generalizing id with
  | zero => rfl
  | succ steps ih =>
      rw [Universe.isVisibleWithin, Universe.isVisibleWithin, type_view, funext ih]
      rcases u.type id with e | node
      · rfl
      · simp only [Except.map, bind, Except.bind, v.type_flags, v.type_declaringType]

theorem isExternallyVisible_view (ref : MemberRef) :
    (v.on u).isExternallyVisible ref = u.isExternallyVisible ref := by
  unfold Universe.isExternallyVisible
  rw [method_view, typeCount_view, isVisibleWithin_view]
  rcases u.method ref with e | method
  · rfl
  · simp only [Except.map, bind, Except.bind, v.method_flags]

/-! ## What passes look up -/

theorem resolveType_view (type : TypeRef) :
    (v.on u).resolveType type = u.resolveType type := by
  unfold Universe.resolveType
  rw [funext (findType?_view v u)]

theorem lookupField_view (ref : MemberRef) :
    Guard.lookupField (v.on u) ref = Guard.lookupField u ref := by
  unfold Guard.lookupField
  rw [member_view]
  rcases u.member ref with e | member
  · rfl
  · simp only [Except.map, bind, Except.bind, v.member_field?, v.member_declaringType, type_view]
    rcases member.field? with _ | field
    · rfl
    · simp only [Option.map_some]
      rcases u.type member.declaringType with e | owner
      · rfl
      · simp only [v.field_type, v.field_flags, v.type_isValueType, v.type_contract]

theorem symbolOf_view (callee : Expr) :
    Conditional.symbolOf (v.on u) callee = Conditional.symbolOf u callee := by
  unfold Conditional.symbolOf
  split
  · rw [member_view]
    rename_i ref _
    rcases u.member ref with e | member
    · rfl
    · simp only [Except.map, bind, Except.bind, v.member_method?]
      rcases member.method? with _ | method
      · rfl
      · simp only [Option.map_some, v.method_conditionalSymbol]
  · rfl

theorem lookup_view (type : TypeId) (name : String) :
    Binding.lookup (v.on u) type name = Binding.lookup u type name := by
  unfold Binding.lookup
  rw [findMember?_view]
  rcases u.findMember? type name with _ | ref
  · rfl
  · simp only [bind, Option.bind_some, member_view]
    rcases u.member ref with e | member
    · rfl
    · simp only [Except.map, Except.toOption, Option.bind_some, v.member_field?, Option.map_map,
        Function.comp_def, v.field_type, resolveType_view, v.member_isStatic]

theorem callType_view (callee : Expr) :
    Binding.callType (v.on u) callee = Binding.callType u callee := by
  unfold Binding.callType
  split
  · rw [method_view]
    rename_i ref _
    rcases u.method ref with e | method
    · rfl
    · simp only [Except.map, v.method_returnType, resolveType_view]
  · rfl

theorem contractOf_view (guard type : TypeId) (members : List Member) :
    Contracts.contractOf (v.on u) guard type (members.map v.member) =
      Contracts.contractOf u guard type members := by
  have hfield : ∀ m, Contracts.isFrameField (v.on u) guard (v.member m) =
      Contracts.isFrameField u guard m := by
    intro m
    unfold Contracts.isFrameField
    rw [v.member_field?]
    rcases m.field? with _ | field
    · rfl
    · simp only [Option.map_some, v.field_flags, v.field_type, resolveType_view]
  have hgetter : ∀ m, Contracts.isFrameGetter (v.on u) guard (v.member m) =
      Contracts.isFrameGetter u guard m := by
    intro m
    unfold Contracts.isFrameGetter
    rw [v.member_method?]
    rcases m.method? with _ | method
    · rfl
    · simp only [Option.map_some, Method.isConstructor, v.method_kind, v.method_flags,
        v.method_parameters, v.method_returnType, resolveType_view]
  unfold Contracts.contractOf
  simp only [List.findIdx?_map, Function.comp_def, hfield, hgetter]

theorem wellKnown_view : WellKnown.ofUniverse (v.on u) = WellKnown.ofUniverse u := by
  unfold WellKnown.ofUniverse WellKnown.findGuard WellKnown.findCheck
  simp only [findType?_view, findMethod?_view]

/-! ## Changing -/

theorem module_modifyType (m : Module) (id : TypeId) {f f' : TypeNode → TypeNode}
    (h : ∀ t, v.type (f t) = f' (v.type t)) :
    v.module (m.modifyType id f) = (v.module m).modifyType id f' := by
  unfold Module.modifyType
  by_cases hm : id.module = m.id
  · rw [if_pos hm, if_pos (hm.trans (v.module_id m).symm), v.module_withTypes,
      Arena.map_modify m.types id.index h, v.module_types]
  · rw [if_neg hm, if_neg fun hid => hm (hid.trans (v.module_id m))]

theorem modifyType_view (id : TypeId) {f f' : TypeNode → TypeNode}
    (h : ∀ t, v.type (f t) = f' (v.type t)) :
    v.on (u.modifyType id f) = (v.on u).modifyType id f' :=
  congrArg Universe.mk (Arena.map_modify u.modules id.module fun m => v.module_modifyType m id h)

theorem modifyMethod_view (ref : MemberRef) {f f' : Method → Method}
    (h : ∀ m, v.method (f m) = f' (v.method m)) :
    v.on (u.modifyMethod ref f) = (v.on u).modifyMethod ref f' := by
  refine v.modifyType_view u ref.type fun t => ?_
  have hmembers : (t.members.modify ref.index (Member.modifyMethod f)).map v.member =
      (t.members.map v.member).modify ref.index (Member.modifyMethod f') := by
    refine List.ext_getElem? fun i => ?_
    rw [List.getElem?_map, List.getElem?_modify, List.getElem?_modify, List.getElem?_map]
    split <;> simp [Option.map_map, Function.comp_def, v.member_modifyMethod _ h]
  rw [v.type_withMembers, hmembers, v.type_members]

end View

end MiddleEnd
