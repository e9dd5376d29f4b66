/-
  Which types get a guard contract. A contract describes a type if it names the first instance field
  of the guard type and the first instance method without parameters that returns it (`Describes`).
  Contracts are installed type by type over a list, and no step changes what a name resolves to, so
  each type of the list that holds a part of a guard ends with its own description, and every other
  type stays as it was (`installOnAll_equips`).

  The list is the one that the unit keeps, which has no nested types in it. Passes also edit the
  methods of nested types, so a nested type that holds a guard is edited without a contract
  (`install_describes_iff`, `vault_not_described`).
-/
import MiddleEnd.Proofs.Compilation.Closed
import MiddleEnd.Proofs.Pass.Revision
import MiddleEnd.Proofs.Universe.Reach
import MiddleEnd.Sample

namespace MiddleEnd

/-! ## Names are found whatever the contracts -/

/-- What a type is found by. -/
def TypeNode.heading (t : TypeNode) : Option TypeId × String × String :=
  (t.declaringType, t.namespaceName, t.name)

theorem Module.findType?_of_headings {m m' : Module} (hid : m'.id = m.id)
    (h : m'.types.map TypeNode.heading = m.types.map TypeNode.heading) (ns name : String) :
    m'.findType? ns name = m.findType? ns name := by
  have hfind (m : Module) : m.findType? ns name =
      ((m.types.map TypeNode.heading).enumerate.find? fun entry =>
        entry.2.1.isNone && entry.2.2.1 == ns && entry.2.2.2 == name).map
          fun entry => ⟨m.id, entry.1⟩ := by
    unfold Module.findType?
    simp only [Arena.enumerate, Arena.toList, Arena.map, Array.toList_map, List.zipIdx_map,
      List.map_map, List.find?_map, Option.map_map, Function.comp_def, Prod.map, id_eq,
      TypeNode.heading]
  rw [hfind, hfind, h, hid]

theorem Module.findType?_modifyType {f : TypeNode → TypeNode}
    (hf : ∀ t, (f t).heading = t.heading) (m : Module) (id : TypeId) (ns name : String) :
    (m.modifyType id f).findType? ns name = m.findType? ns name := by
  unfold modifyType
  split
  · have htypes : (m.types.modify id.index f).map TypeNode.heading =
        (m.types.map TypeNode.heading).modify id.index fun heading => heading :=
      Arena.map_modify m.types id.index hf
    refine findType?_of_headings ?_ ?_ ns name
    · rfl
    · exact htypes.trans (Arena.modify_self _ _)
  · rfl

namespace Universe

variable {u : Universe}

theorem findType?_modifyType {f : TypeNode → TypeNode} (hf : ∀ t, (f t).heading = t.heading)
    (id : TypeId) (qualified : String) :
    (u.modifyType id f).findType? qualified = u.findType? qualified := by
  unfold findType? modifyType modifyModule
  generalize splitQualified qualified = parts
  have hmodules : (u.modules.modify id.module fun m => m.modifyType id f).map
      (fun m => m.findType? parts.1 parts.2) =
      (u.modules.map fun m => m.findType? parts.1 parts.2).modify id.module fun found => found :=
    Arena.map_modify u.modules id.module fun m =>
      Module.findType?_modifyType hf m id parts.1 parts.2
  rw [Arena.modify_self] at hmodules
  have hlist := congrArg (fun found => found.toList.findSome? fun id? => id?) hmodules
  simpa only [Arena.map, Arena.toList, Array.toList_map, List.findSome?_map, Function.comp_def]
    using hlist

theorem resolveType_modifyType {f : TypeNode → TypeNode} (hf : ∀ t, (f t).heading = t.heading)
    (id : TypeId) (type : TypeRef) : (u.modifyType id f).resolveType type = u.resolveType type := by
  unfold resolveType
  rw [funext (findType?_modifyType hf id)]

end Universe

namespace Contracts

variable {u u' u₁ u₂ : Universe} {guard : TypeId}

/-! ## What describes a type -/

/-- An instance field whose type resolves to the guard type. -/
def IsFrameField (u : Universe) (guard : TypeId) (m : Member) : Prop :=
  ∃ field, m.field? = some field ∧ field.flags.isStatic = false ∧
    u.resolveType field.type = .bound guard

/-- An instance method, no constructor, that takes nothing and returns the guard type. -/
def IsFrameGetter (u : Universe) (guard : TypeId) (m : Member) : Prop :=
  ∃ method, m.method? = some method ∧ method.flags.hasThis = true ∧ method.parameters = [] ∧
    method.isConstructor = false ∧ u.resolveType method.returnType = .bound guard

/-- The member at the position has the property, and no member before it has. -/
def IsFirst (p : Member → Prop) (members : List Member) (i : Nat) : Prop :=
  (∃ m, members[i]? = some m ∧ p m) ∧ ∀ j < i, ∀ m, members[j]? = some m → ¬p m

/-- The contract names the first field and the first getter of a guard, and no other member. -/
structure Describes (u : Universe) (guard type : TypeId) (members : List Member)
    (contract : Contract) : Prop where
  field : ∀ ref, contract.field = some ref ↔
    ref.type = type ∧ IsFirst (IsFrameField u guard) members ref.index
  getter : ∀ ref, contract.getter = some ref ↔
    ref.type = type ∧ IsFirst (IsFrameGetter u guard) members ref.index

/-- There is something for a contract to name. -/
def HoldsGuard (u : Universe) (guard : TypeId) (members : List Member) : Prop :=
  ∃ m ∈ members, IsFrameField u guard m ∨ IsFrameGetter u guard m

/-- The type has a contract that describes it. -/
def Described (u : Universe) (guard type : TypeId) (node : TypeNode) : Prop :=
  ∃ contract, node.contract = some contract ∧ Describes u guard type node.members contract

theorem isBoundTo_iff {id : TypeId} {type : TypeRef} :
    type.isBoundTo id = true ↔ type = .bound id := by
  cases type <;> simp [TypeRef.isBoundTo]

theorem isFrameField_iff {m : Member} : isFrameField u guard m = true ↔ IsFrameField u guard m := by
  unfold isFrameField IsFrameField
  rcases m.field? with _ | field
  · simp
  · simp [isBoundTo_iff]

theorem isFrameGetter_iff {m : Member} :
    isFrameGetter u guard m = true ↔ IsFrameGetter u guard m := by
  unfold isFrameGetter IsFrameGetter
  rcases m.method? with _ | method
  · simp
  · simp [isBoundTo_iff, and_assoc]

/-- The position that is found is the first one, as a part of the type. -/
theorem findIdx?_eq_some_iff_isFirst {test : Member → Bool} {p : Member → Prop}
    (h : ∀ m, test m = true ↔ p m) {type : TypeId} {members : List Member} {ref : MemberRef} :
    ((members.findIdx? test).map fun i => (⟨type, i⟩ : MemberRef)) = some ref ↔
      ref.type = type ∧ IsFirst p members ref.index := by
  obtain ⟨type', index⟩ := ref
  simp only [Option.map_eq_some_iff, MemberRef.mk.injEq, IsFirst,
    List.findIdx?_eq_some_iff_getElem]
  constructor
  · rintro ⟨i, ⟨hlt, hi, hbefore⟩, rfl, rfl⟩
    refine ⟨rfl, ⟨_, List.getElem?_eq_getElem hlt, (h _).mp hi⟩, fun j hj m hm hp => ?_⟩
    obtain ⟨hj', rfl⟩ := List.getElem?_eq_some_iff.mp hm
    exact hbefore j hj ((h _).mpr hp)
  · rintro ⟨rfl, ⟨m, hm, hp⟩, hbefore⟩
    obtain ⟨hlt, rfl⟩ := List.getElem?_eq_some_iff.mp hm
    refine ⟨index, ⟨hlt, (h _).mpr hp, fun j hj htest => ?_⟩, rfl, rfl⟩
    exact hbefore j hj _ (List.getElem?_eq_getElem _) ((h _).mp htest)

theorem holdsGuard_iff {members : List Member} : HoldsGuard u guard members ↔
    (members.any fun m => isFrameField u guard m || isFrameGetter u guard m) = true := by
  simp only [HoldsGuard, List.any_eq_true, Bool.or_eq_true, isFrameField_iff, isFrameGetter_iff]

instance (members : List Member) : Decidable (HoldsGuard u guard members) :=
  decidable_of_iff _ holdsGuard_iff.symm

theorem contractOf_describes (u : Universe) (guard type : TypeId) (members : List Member) :
    Describes u guard type members (contractOf u guard type members) where
  field := fun _ => findIdx?_eq_some_iff_isFirst fun _ => isFrameField_iff
  getter := fun _ => findIdx?_eq_some_iff_isFirst fun _ => isFrameGetter_iff

theorem contractOf_eq_empty_iff {type : TypeId} {members : List Member} :
    contractOf u guard type members = {} ↔ ¬HoldsGuard u guard members := by
  simp only [contractOf, Contract.mk.injEq, Option.map_eq_none_iff, List.findIdx?_eq_none_iff,
    HoldsGuard, not_exists, not_and, not_or]
  constructor
  · rintro ⟨hgetter, hfield⟩ m hm
    rw [← isFrameField_iff, hfield m hm, ← isFrameGetter_iff, hgetter m hm]
    exact ⟨Bool.false_ne_true, Bool.false_ne_true⟩
  · intro h
    refine ⟨fun m hm => ?_, fun m hm => ?_⟩
    · rw [← Bool.not_eq_true, isFrameGetter_iff]
      exact (h m hm).2
    · rw [← Bool.not_eq_true, isFrameField_iff]
      exact (h m hm).1

theorem contractOf_congr (h : ∀ type, u'.resolveType type = u.resolveType type) (type : TypeId)
    (members : List Member) :
    contractOf u' guard type members = contractOf u guard type members := by
  have hfield : isFrameField u' guard = isFrameField u guard := by
    funext m
    unfold isFrameField
    rw [funext h]
  have hgetter : isFrameGetter u' guard = isFrameGetter u guard := by
    funext m
    unfold isFrameGetter
    rw [funext h]
  unfold contractOf
  rw [hfield, hgetter]

/-! ## Installing on a list of types -/

/-- The type with its own contract, if it is listed and there is something to name. -/
def equip (u : Universe) (guard : TypeId) (types : List TypeId) (id : TypeId) (node : TypeNode) :
    TypeNode :=
  { node with
    contract := if id ∈ types ∧ contractOf u guard id node.members ≠ {} then
      some (contractOf u guard id node.members) else node.contract }

/-- The second universe is the first with contracts on the listed types. -/
structure Equips (guard : TypeId) (types : List TypeId) (u u' : Universe) : Prop where
  resolveType : ∀ type, u'.resolveType type = u.resolveType type
  type? : ∀ id, u'.type? id = (u.type? id).map (equip u guard types id)

theorem equip_eq_self {types : List TypeId} {id : TypeId} {node : TypeNode}
    (h : id ∈ types → contractOf u guard id node.members = {}) :
    equip u guard types id node = node := by
  unfold equip
  rw [if_neg]
  rintro ⟨hid, hsome⟩
  exact hsome (h hid)

theorem Equips.nil : Equips guard [] u u where
  resolveType := fun _ => rfl
  type? := by
    intro id
    rw [show equip u guard [] id = fun node => node from
      funext fun node => equip_eq_self fun hid => absurd hid List.not_mem_nil, Option.map_id']

theorem Equips.cons {type : TypeId} {types : List TypeId} (h : Equips guard [type] u u₁)
    (h' : Equips guard types u₁ u₂) : Equips guard (type :: types) u u₂ where
  resolveType := fun t => (h'.resolveType t).trans (h.resolveType t)
  type? := by
    intro id
    rw [h'.type?, h.type?, Option.map_map]
    congr 1
    funext node
    -- the second round sees the members of the first, and names resolve as before
    have hcontract : contractOf u₁ guard id node.members = contractOf u guard id node.members :=
      contractOf_congr h.resolveType id node.members
    simp only [Function.comp_apply, equip, hcontract, List.mem_cons, List.not_mem_nil, or_false]
    by_cases hempty : contractOf u guard id node.members = {}
    · simp [hempty]
    · by_cases hid : id = type
      · subst hid
        simp [hempty]
      · simp [hempty, hid]

variable {σ : Type} {s : PassState σ}

theorem installOn_equips {type : TypeId} {node : TypeNode} (hn : s.types.type? type = some node) :
    (installOn guard type).Runs s fun _ s' => Equips guard [type] s.types s'.types := by
  unfold installOn
  refine .bind (.get ?_)
  refine .bind (.ofExcept (Universe.type_eq_ok.mpr hn) ?_)
  dsimp only
  split
  · rename_i hempty
    refine .pure ⟨fun _ => rfl, fun id => ?_⟩
    rcases hfound : s.types.type? id with _ | found
    · rfl
    · rw [Option.map_some, equip_eq_self]
      intro hid
      obtain rfl := List.mem_singleton.mp hid
      obtain rfl := Option.some.inj (hn.symm.trans hfound)
      exact hempty
  · rename_i hsome
    refine .bind (.modifyTypes ?_)
    refine .pure ⟨fun t => ?_, fun id => ?_⟩
    · dsimp only
      rw [Universe.resolveType_modifyType]
      exact fun _ => rfl
    · rw [Universe.type?_modifyType]
      by_cases hid : id = type
      · subst hid
        rw [if_pos rfl, hn, Option.map_some, Option.map_some, equip,
          if_pos ⟨List.mem_singleton_self id, hsome⟩]
      · rw [if_neg hid]
        rcases s.types.type? id with _ | found
        · rfl
        · rw [Option.map_some, equip_eq_self fun hmem => absurd (List.mem_singleton.mp hmem) hid]

/-- Every type of the list gets its contract, and no other type changes. -/
theorem installOnAll_equips {types : List TypeId} (ht : ∀ id ∈ types, s.types.HasType id) :
    (installOnAll guard types).Runs s fun _ s' => Equips guard types s.types s'.types := by
  induction types generalizing s with
  | nil => exact .pure .nil
  | cons type types ih =>
      obtain ⟨⟨node, hn⟩, hrest⟩ := List.forall_mem_cons.mp ht
      refine .bind (PassM.Runs.mono (installOn_equips hn) fun _ s₁ h₁ => ?_)
      have hrest₁ : ∀ id ∈ types, s₁.types.HasType id := by
        intro id hid
        obtain ⟨node, hnode⟩ := hrest id hid
        exact ⟨_, by rw [h₁.type?, hnode]; rfl⟩
      refine .bind (PassM.Runs.mono (ih hrest₁) fun _ s₂ h₂ => ?_)
      exact .pure (h₁.cons h₂)

theorem install_equips {unit : CompilationUnit}
    (ht : ∀ id ∈ unit.root.allTypes, s.types.HasType id) :
    (install unit guard).Runs s fun _ s' => Equips guard unit.root.allTypes s.types s'.types := by
  refine .bind (PassM.Runs.mono (installOnAll_equips ht) fun _ s' h => ?_)
  exact .bind (.emit (.pure h))

/-- Behind the installation, a type that holds a part of a guard is described if it was listed or
    if it was described before. -/
theorem Equips.described_iff {types : List TypeId} (h : Equips guard types u u') {id : TypeId}
    {node : TypeNode} (hn : u.type? id = some node) (hg : HoldsGuard u guard node.members) :
    ∃ after, u'.type? id = some after ∧ (Described u guard id after ↔
      id ∈ types ∨ Described u guard id node) := by
  refine ⟨equip u guard types id node, by rw [h.type?, hn]; rfl, ?_⟩
  have hsome : contractOf u guard id node.members ≠ {} := fun hempty =>
    contractOf_eq_empty_iff.mp hempty hg
  by_cases hid : id ∈ types
  · have hcontract : (equip u guard types id node).contract =
        some (contractOf u guard id node.members) := if_pos ⟨hid, hsome⟩
    exact iff_of_true ⟨_, hcontract, contractOf_describes u guard id node.members⟩ (.inl hid)
  · rw [equip_eq_self fun hmem => absurd hmem hid]
    exact ⟨.inr, fun hor => hor.resolve_left hid⟩

/-! ## Lowered units -/

/-- In a fresh module, nesting leads from its types to its types. -/
theorem hasType_of_mem_nestedTypes {m : Module} {id inner : TypeId} {node : TypeNode}
    (h : node.Fresh m.HasType id) (hi : inner ∈ Universe.nestedTypes node.members) :
    m.HasType inner := by
  obtain ⟨x, hx, hkind⟩ := List.mem_filterMap.mp hi
  have hfresh := (h.members x hx).kind
  split at hkind
  · rename_i nested hk
    obtain rfl : nested = inner := Option.some.inj hkind
    rw [hk] at hfresh
    exact hfresh
  · cases hkind

/-- A tree that is lowered into a fresh module: the unit lists types of that module, and all of
    these are fresh. -/
theorem lowerInto_fresh (host : Host σ) (tree : CodeTree.CompileUnit) (errors : Sink) (state : σ)
    {module : Module} (hm : u.module? module.id = some module) (hf : module.Fresh) :
    ∃ m : Module,
      (∀ id ∈ (u.lowerInto module host tree errors state).unit.root.allTypes, m.HasType id) ∧
      ∀ id, m.HasType id → ∃ node,
        (u.lowerInto module host tree errors state).types.type? id = some node ∧
        node.Fresh m.HasType id := by
  obtain ⟨hfresh, hgrows, htypes⟩ := Lowering.unit_grows host tree module
    { module, errors, trace := [], host := state } rfl hf
  refine ⟨_, htypes, ?_⟩
  have hmodule := Universe.module?_lowerInto host tree errors state hm
  generalize (Lowering.unit host tree { module, errors, trace := [], host := state }).2.module = m
    at hfresh hgrows hmodule
  rintro ⟨_, ⟨index⟩⟩ ⟨rfl, hlt⟩
  refine ⟨m.types.items[index], ?_, hfresh index _ (Array.getElem?_eq_getElem hlt)⟩
  rw [← hgrows.id_eq] at hmodule
  simp only [Universe.type?, hmodule, Option.bind_eq_bind, Option.bind_some, Module.type?, if_true]
  exact Array.getElem?_eq_getElem hlt

/-- For every universe and every unit whose methods can be enumerated, contracts can be installed.
    Behind that a type which the enumeration visits and which holds a part of a guard is described
    by its contract exactly if the unit lists it, or if it was described before. Whatever is
    lowered into a fresh module can be enumerated, and has no contracts before. -/
theorem install_describes_iff {σ τ : Type} (guard : TypeId) :
    (∀ (s : PassState τ) (unit : CompilationUnit) (methods : List MemberRef),
      s.types.unitMethods unit = .ok methods →
        (∀ ref ∈ methods, s.types.Reached unit ref.type) ∧
        ∃ count s', (install unit guard).run s = (.ok count, s') ∧
          ∀ id node, s.types.Reached unit id → s.types.type? id = some node →
            HoldsGuard s.types guard node.members →
            ∃ after, s'.types.type? id = some after ∧
              (Described s.types guard id after ↔
                id ∈ unit.root.allTypes ∨ Described s.types guard id node)) ∧
    ∀ (u : Universe) (module : Module) (host : Host σ) (tree : CodeTree.CompileUnit)
      (errors : Sink) (state : σ), u.module? module.id = some module → module.Fresh →
        let l := u.lowerInto module host tree errors state
        (∃ methods, l.types.unitMethods l.unit = .ok methods) ∧
        ∀ id, l.types.Reached l.unit id →
          ∃ node, l.types.type? id = some node ∧ node.contract = none := by
  refine ⟨fun s unit methods he => ⟨fun _ href => (Universe.of_mem_unitMethods he href).1, ?_⟩, ?_⟩
  · have hinstall : (install unit guard).Runs s fun _ s' =>
        Equips guard unit.root.allTypes s.types s'.types :=
      install_equips (Universe.hasType_of_unitMethods he)
    obtain ⟨count, s', hrun, hequips⟩ := hinstall
    exact ⟨count, s', hrun, fun _ _ _ hn hg => hequips.described_iff hn hg⟩
  · intro u module host tree errors state hm hf
    obtain ⟨m, hlisted, hfresh⟩ := lowerInto_fresh host tree errors state hm hf
    have hkept : (u.lowerInto module host tree errors state).types.KeptByNesting m.HasType := by
      intro id hid
      obtain ⟨node, hn, hnode⟩ := hfresh id hid
      exact ⟨node, hn, fun _ => hasType_of_mem_nestedTypes hnode⟩
    refine ⟨Universe.unitMethods_ok_of hkept hlisted, fun id hid => ?_⟩
    obtain ⟨node, hn, hnode⟩ := hfresh id (hid.of_kept hkept hlisted)
    exact ⟨node, hn, hnode.contract⟩

/-- An account that holds a guard, and in it a vault that holds one too. -/
def vaultInAccount : CodeTree.CompileUnit :=
  Sample.unitWith "Bank" [{ Sample.classNamed "Account" with members := [
    (CodeTree.MemberForm.field Sample.frame).node,
    (CodeTree.MemberForm.method Sample.getFrame).node,
    (CodeTree.MemberForm.nestedType { Sample.classNamed "Vault" with members := [
      (CodeTree.MemberForm.field Sample.frame).node,
      (CodeTree.MemberForm.method Sample.getFrame).node,
      (CodeTree.MemberForm.field Sample.balance).node] }).node] }]

def guardId : TypeId := ⟨⟨0⟩, ⟨0⟩⟩

def accountId : TypeId := ⟨⟨1⟩, ⟨0⟩⟩

def vaultId : TypeId := ⟨⟨1⟩, ⟨1⟩⟩

/-- Next to the core library, in a module of their own. -/
def loweredVault : Lowered AssemblyTable :=
  (coreUniverse.newModule "App").1.lowerInto { id := ⟨1⟩, name := "App" } AssemblyTable.host
    vaultInAccount [] AssemblyTable.standard

theorem install_describes_iff_vaultInAccount :
    ∃ methods, loweredVault.types.unitMethods loweredVault.unit = .ok methods ∧
    ∃ count s', (install loweredVault.unit guardId).run ⟨(), loweredVault.types, []⟩ =
        (.ok count, s') ∧
      ∃ after, s'.types.type? accountId = some after ∧
        Described loweredVault.types guardId accountId after := by
  obtain ⟨hall, hlowered⟩ := install_describes_iff (σ := AssemblyTable) (τ := Unit) guardId
  obtain ⟨⟨methods, hmethods⟩, -⟩ := hlowered (coreUniverse.newModule "App").1
    { id := ⟨1⟩, name := "App" } AssemblyTable.host vaultInAccount [] AssemblyTable.standard rfl
    (Module.fresh_empty ⟨1⟩ "App")
  obtain ⟨-, count, s', hrun, hiff⟩ :=
    hall ⟨(), loweredVault.types, []⟩ loweredVault.unit methods hmethods
  have hlisted : accountId ∈ loweredVault.unit.root.allTypes := by decide +kernel
  have hguard : (loweredVault.types.type? accountId).any fun node =>
      HoldsGuard loweredVault.types guardId node.members := by decide +kernel
  obtain ⟨node, hn, hg⟩ := (Option.any_eq_true _ _).mp hguard
  obtain ⟨after, hafter, hdescribed⟩ :=
    hiff accountId node (.listed hlisted) hn (of_decide_eq_true hg)
  exact ⟨methods, hmethods, count, s', hrun, after, hafter, hdescribed.mpr (.inl hlisted)⟩

/-- The methods of the vault are enumerated and it holds a guard, but it gets no contract. -/
theorem vault_not_described :
    loweredVault.types.unitMethods loweredVault.unit =
      .ok [⟨accountId, 1⟩, ⟨accountId, 3⟩, ⟨vaultId, 1⟩, ⟨vaultId, 3⟩] ∧
    ∃ node s' after, loweredVault.types.type? vaultId = some node ∧
      HoldsGuard loweredVault.types guardId node.members ∧
      (install loweredVault.unit guardId).run ⟨(), loweredVault.types, []⟩ = (.ok 1, s') ∧
      s'.types.type? vaultId = some after ∧
      ¬Described loweredVault.types guardId vaultId after := by
  have hguard : (loweredVault.types.type? vaultId).any fun node =>
      HoldsGuard loweredVault.types guardId node.members := by decide +kernel
  obtain ⟨node, hn, hg⟩ := (Option.any_eq_true _ _).mp hguard
  have hmethods : loweredVault.types.unitMethods loweredVault.unit =
      .ok [⟨accountId, 1⟩, ⟨accountId, 3⟩, ⟨vaultId, 1⟩, ⟨vaultId, 3⟩] :=
    toOption_eq_some.mp (by decide +kernel)
  have hcount : ((install loweredVault.unit guardId).run ⟨(), loweredVault.types, []⟩).1 =
      .ok 1 := toOption_eq_some.mp (by decide +kernel)
  have hcontract : ((((install loweredVault.unit guardId).run
      ⟨(), loweredVault.types, []⟩).2.types.type? vaultId).any fun after =>
        after.contract.isNone) = true := by decide +kernel
  rcases hrun : (install loweredVault.unit guardId).run ⟨(), loweredVault.types, []⟩ with
    ⟨count, s'⟩
  rw [hrun] at hcount hcontract
  obtain ⟨after, hafter, hnone⟩ := (Option.any_eq_true _ _).mp hcontract
  refine ⟨hmethods, node, s', after, hn, of_decide_eq_true hg, ?_, hafter, ?_⟩
  · rw [← hcount]
  · rintro ⟨contract, hsome, -⟩
    rw [hsome] at hnone
    cases hnone

end Contracts

end MiddleEnd
