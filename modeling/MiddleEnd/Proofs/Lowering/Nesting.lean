/-
  Lowering keeps a module well formed. A declaration enters its type and, behind it, the forest of
  the types that are nested in it; only then the type gets its members. A whole unit enters one
  forest, and its roots are the types that the unit lists. So a well-formed module stays well
  formed, its old types are where they were, and the new types that are not nested are listed in
  the order of the unit (`unit_wellFormed`). This takes positions that do not wrap around: the
  module must not end up with more than 2^32 types.
-/
import MiddleEnd.Compile
import MiddleEnd.Proofs.Lowering.Declaration
import MiddleEnd.Proofs.Universe.Nesting
import MiddleEnd.Sample

namespace MiddleEnd

namespace Lower

variable {σ α β : Type} {outer : Option TypeId}

/-- A run of the action leaves the module `m` with types that are entered below `outer`; `post`
    holds of the result and of the roots of what is entered. -/
def EntersFrom (action : Lower σ α) (s : LoweringState σ) (m : Module) (outer : Option TypeId)
    (post : α → List TypeId → Prop) : Prop :=
  ∃ roots, m.Enters (action s).2.module outer roots ∧ post (action s).1 roots

/-- Whatever the state, the action enters types into its module. -/
def Enters (action : Lower σ α) (outer : Option TypeId) (post : α → List TypeId → Prop) : Prop :=
  ∀ s, action.EntersFrom s s.module outer post

namespace Enters

theorem pure {a : α} {post : α → List TypeId → Prop} (h : post a []) :
    (Pure.pure a : Lower σ α).Enters outer post :=
  fun _ => ⟨[], .unchanged rfl rfl rfl, h⟩

theorem bind {action : Lower σ α} {next : α → Lower σ β} {mid : α → List TypeId → Prop}
    {post : β → List TypeId → Prop} (h : action.Enters outer mid)
    (hn : ∀ a roots, mid a roots → (next a).Enters outer fun b more => post b (roots ++ more)) :
    Lower.Enters (action >>= next) outer post := by
  intro s
  obtain ⟨roots, henters, hmid⟩ := h s
  obtain ⟨more, henters', hpost⟩ := hn _ roots hmid (action s).2
  exact ⟨roots ++ more, henters.trans henters', hpost⟩

/-- First an action that leaves the module alone. -/
theorem behind {action : Lower σ α} {next : α → Lower σ β} {mid : α → Prop}
    {post : β → List TypeId → Prop} (h : action.Yields mid)
    (hn : ∀ a, mid a → (next a).Enters outer post) : Lower.Enters (action >>= next) outer post := by
  intro s
  obtain ⟨hmid, hsame⟩ := h s
  obtain ⟨roots, henters, hpost⟩ := hn _ hmid (action s).2
  rw [hsame] at henters
  exact ⟨roots, henters, hpost⟩

theorem get {next : LoweringState σ → Lower σ β} {post : β → List TypeId → Prop}
    (hn : ∀ s, (next s).EntersFrom s s.module outer post) :
    Lower.Enters (MonadState.get >>= next) outer post :=
  hn

/-- The state is read. -/
theorem read {next : LoweringState σ → Lower σ β} {post : β → List TypeId → Prop}
    (hn : ∀ s, (next s).Enters outer post) : Lower.Enters (MonadState.get >>= next) outer post :=
  fun s => hn s s

theorem modifyModule {f : Module → Module} (hid : ∀ m, (f m).id = m.id)
    (ht : ∀ m, (f m).types = m.types) (hl : ∀ m, (f m).topLevel = m.topLevel) :
    (Lower.modifyModule f : Lower σ Unit).Enters outer fun _ roots => roots = [] :=
  fun s => ⟨[], .unchanged (hid s.module) (ht s.module) (hl s.module), rfl⟩

/-- The results, each with its roots, in order. -/
theorem mapM {f : α → Lower σ β} {rootsOf : β → List TypeId}
    (h : ∀ a, (f a).Enters outer fun b roots => roots = rootsOf b) (as : List α) :
    Lower.Enters (as.mapM f) outer fun bs roots => roots = bs.flatMap rootsOf := by
  induction as with
  | nil =>
      rw [List.mapM_nil]
      exact .pure rfl
  | cons a as ih =>
      rw [List.mapM_cons]
      refine .bind (h a) fun b roots hb => .bind ih fun bs more hbs => .pure ?_
      rw [hb, hbs, List.append_nil, List.flatMap_cons]

end Enters

/-- A type is added, and what follows runs in the module with that type. -/
theorem EntersFrom.addType {s : LoweringState σ} {t : TypeNode} {next : TypeId → Lower σ β}
    {post : β → List TypeId → Prop}
    (hn : ∀ m id, s.module.addType t = (m, id) →
      (next id).EntersFrom { s with module := m } s.module outer post) :
    Lower.EntersFrom (Lower.addType t >>= next) s s.module outer post :=
  hn _ _ rfl

end Lower

namespace Lowering

open Lower

variable {σ : Type} (host : Host σ)

/-! ## Members -/

/-- Members of a type from a position on; `nested` are the types among them. -/
structure HeldAt (owner : TypeId) (position : Nat) (members : List Member) (nested : List TypeId) :
    Prop where
  owner_eq : ∀ x ∈ members, x.declaringType = owner
  accessors : AccessorsAt owner position members
  nested_eq : Universe.nestedTypes members = nested

theorem HeldAt.nil {owner : TypeId} {position : Nat} : HeldAt owner position [] [] :=
  ⟨fun _ hx => absurd hx List.not_mem_nil, .nil, rfl⟩

theorem nestedTypes_append (first rest : List Member) :
    Universe.nestedTypes (first ++ rest) =
      Universe.nestedTypes first ++ Universe.nestedTypes rest :=
  List.filterMap_append

theorem HeldAt.append {owner : TypeId} {position : Nat} {first rest : List Member}
    {nested nested' : List TypeId} (hf : HeldAt owner position first nested)
    (hr : HeldAt owner (position + first.length) rest nested') :
    HeldAt owner position (first ++ rest) (nested ++ nested') where
  owner_eq := List.forall_mem_append.mpr ⟨hf.owner_eq, hr.owner_eq⟩
  accessors := hf.accessors.append hr.accessors
  nested_eq := by rw [nestedTypes_append, hf.nested_eq, hr.nested_eq]

/-- Members that refer to no other type. -/
theorem heldAt_own {owner : TypeId} {position : Nat} {members : List Member}
    (h : ∀ x ∈ members, Own owner x) (ha : AccessorsAt owner position members) :
    HeldAt owner position members [] := by
  refine ⟨fun x hx => (h x hx).owner_eq, ha, ?_⟩
  unfold Universe.nestedTypes
  rw [List.filterMap_eq_nil_iff]
  intro x hx
  have hkind := (h x hx).kind
  split
  · rename_i id hid
    rw [hid] at hkind
    exact hkind.elim
  · rfl

theorem Plain.heldAt {owner : TypeId} {position : Nat} {x : Member} (h : Plain owner x) :
    HeldAt owner position [x] [] := by
  refine heldAt_own (fun y hy => ?_) (.of_none h.noProperty)
  rw [List.mem_singleton.mp hy]
  exact h.toOwn

theorem HeldAt.withConstructor {owner : TypeId} {members : List Member} {nested : List TypeId}
    (h : HeldAt owner 0 members nested) (kind : CodeTree.TypeKind) :
    HeldAt owner 0 (withConstructor kind owner members) nested := by
  unfold Lowering.withConstructor
  split
  · have hall := h.append (defaultConstructor_plain owner).heldAt
    rwa [List.append_nil] at hall
  · exact h

/-! ## Types -/

mutual

theorem typeDeclaration_enters (ns : String) (outer : Option TypeId) :
    (d : CodeTree.TypeDeclaration) →
      (typeDeclaration host ns outer d).Enters outer fun id roots => roots = [id]
  | ⟨name, kind, modifiers, baseTypes, declared, customAttributes, source⟩ => by
      rw [typeDeclaration]
      refine .behind (typeKind_yields host baseTypes kind) fun nodeKind _ => ?_
      refine .behind (attributes_yields host customAttributes) fun attributes _ => ?_
      refine .get fun s => ?_
      refine .addType fun m id hadd => ?_
      split
      · exact ⟨[id], .addType hadd rfl rfl, rfl⟩
      · -- the nested types come in behind the type, and only then the type gets its members
        have howner : (ownerOf id kind).id = id := by cases kind <;> rfl
        obtain ⟨nested, henters, hheld⟩ :=
          members_enters (ownerOf id kind) 0 declared { s with module := m }
        rw [howner] at henters hheld
        have hall := hheld.withConstructor kind
        exact ⟨[id], .declare hadd rfl henters hall.owner_eq hall.accessors hall.nested_eq, rfl⟩

theorem members_enters (owner : Owner) (position : Nat) : (ds : List CodeTree.Member) →
    (members host owner position ds).Enters (some owner.id) (HeldAt owner.id position)
  | [] => by
      rw [members]
      exact .pure .nil
  | d :: ds => by
      rw [members]
      refine .bind (member_enters owner position d) fun first roots hf => ?_
      refine .bind (members_enters owner (position + first.length) ds) fun rest more hr => ?_
      refine .pure ?_
      rw [List.append_nil]
      exact hf.append hr

theorem member_enters (owner : Owner) (position : Nat) : (d : CodeTree.Member) →
    (member host owner position d).Enters (some owner.id) (HeldAt owner.id position)
  | ⟨.unrecognized kind, source⟩ => by
      rw [member]
      exact .behind (.unexpected kind source) fun _ _ => .pure .nil
  | ⟨.field d, source⟩ => by
      rw [member]
      exact .behind (fieldMember_yields host owner source d) fun _ hx => .pure hx.heldAt
  | ⟨.method d, source⟩ => by
      rw [member]
      exact .behind (methodMember_yields host owner source d.name d.attributes d) fun _ hx =>
        .pure hx.heldAt
  | ⟨.entryPoint d, source⟩ => by
      rw [member]
      exact .behind (methodMember_yields host owner source "Main" .publicStatic d) fun _ hx =>
        .pure hx.heldAt
  | ⟨.constructor d, source⟩ => by
      rw [member]
      exact .behind (constructorMember_yields host owner source d) fun _ hx => .pure hx.heldAt
  | ⟨.property d, source⟩ => by
      rw [member, ← bind_pure (propertyMembers host owner source position d)]
      exact .behind (propertyMembers_yields host owner source position d) fun _ hms =>
        .pure (heldAt_own hms.1 hms.2)
  | ⟨.event d, source⟩ => by
      rw [member]
      exact .behind (eventMember_yields host owner source d) fun _ hx => .pure hx.heldAt
  | ⟨.snippet text pragma, _⟩ => by
      rw [member]
      refine .behind (.snippetDocument host pragma text) fun document _ => .pure ?_
      exact Plain.heldAt ⟨⟨rfl, trivial⟩, rfl⟩
  | ⟨.nestedType d, source⟩ => by
      rw [member]
      refine .bind (typeDeclaration_enters "" (some owner.id) d) fun id roots hroots => .pure ?_
      rw [hroots]
      refine ⟨fun x hx => ?_, .of_none rfl, rfl⟩
      rw [List.mem_singleton.mp hx]

end

/-! ## Units -/

theorem namespaceNode_enters (n : CodeTree.Namespace) :
    (namespaceNode host n).Enters none fun ns roots => roots = ns.allTypes := by
  refine .bind (.mapM (typeDeclaration_enters host n.name none) n.types) fun ids roots h => .pure ?_
  rw [h, List.flatMap_singleton', Namespace.allTypes, allTypesOf]

theorem allTypesOf_eq_flatMap (namespaces : List Namespace) :
    allTypesOf namespaces = namespaces.flatMap Namespace.allTypes := by
  induction namespaces with
  | nil => rw [allTypesOf, List.flatMap_nil]
  | cons n namespaces ih => rw [allTypesOf, ih, List.flatMap_cons]

theorem references_enters (seen names : List String) :
    (references host seen names).Enters none fun _ roots => roots = [] := by
  induction names generalizing seen with
  | nil => exact .pure rfl
  | cons name names ih =>
      rw [references]
      refine .behind (.ask _) fun answer _ => ?_
      split
      · split
        · exact .behind (.emit _) fun _ _ => ih seen
        · refine .bind (.modifyModule (fun _ => rfl) (fun _ => rfl) fun _ => rfl) fun _ _ h => ?_
          rw [h]
          exact ih _
      · exact .behind (.emit _) fun _ _ => .behind (.modify fun _ => rfl) fun _ _ => ih seen

/-- The types that a unit lists are the roots of what it enters. -/
theorem unit_enters (u : CodeTree.CompileUnit) :
    (unit host u).Enters none fun c roots => roots = c.root.allTypes := by
  unfold unit
  refine .read fun s => ?_
  refine .behind (attributes_yields host u.assemblyAttributes) fun _ _ => ?_
  refine .bind (.modifyModule (fun _ => rfl) (fun _ => rfl) fun _ => rfl) fun _ _ h₁ => ?_
  rw [h₁]
  refine .read fun s₁ => ?_
  refine .bind (references_enters host _ u.referencedAssemblies) fun _ _ h₂ => ?_
  rw [h₂]
  refine .bind (.mapM (namespaceNode_enters host) u.namespaces) fun namespaces roots h₃ => ?_
  rw [h₃, ← allTypesOf_eq_flatMap]
  dsimp only
  split
  · rw [pure_bind]
    exact .read fun s₂ => .behind (.emit _) fun _ _ => .pure (by simp [Namespace.allTypes])
  · rename_i snippet _
    refine .behind (unitSource_yields host snippet) fun source _ => ?_
    rw [pure_bind]
    exact .read fun s₂ => .behind (.emit _) fun _ _ => .pure (by simp [Namespace.allTypes])

/-- Lowering into a well-formed module gives a well-formed module. The types that were there are
    unchanged at their positions, and behind them the new types that are not nested are exactly
    those of the unit, in the order of the unit. -/
theorem unit_wellFormed (u : CodeTree.CompileUnit) (s : LoweringState σ)
    (hw : s.module.WellFormed)
    (hs : (unit host u s).2.module.types.size ≤ UInt32.size) :
    (unit host u s).2.module.WellFormed ∧
    (∀ (i : Nat) (t : TypeNode), s.module.types.items[i]? = some t →
      (unit host u s).2.module.types.items[i]? = some t) ∧
    (unit host u s).2.module.topLevel =
      s.module.topLevel ++ (unit host u s).1.root.allTypes := by
  obtain ⟨roots, henters, hroots⟩ := unit_enters host u s
  obtain ⟨new, hadds, hnew⟩ := henters.adds hs nofun
  refine ⟨hw.adds hadds, fun i t hi => ?_, ?_⟩
  · rw [← Array.getElem?_toList] at hi ⊢
    obtain ⟨hlt, -⟩ := List.getElem?_eq_some_iff.mp hi
    have htypes : (unit host u s).2.module.types.items.toList = _ := hadds.types_eq
    rw [htypes]
    exact (List.getElem?_append_left hlt).trans hi
  · rw [hadds.topLevel_eq, hnew, hroots]

end Lowering

/-- A module to which the guard type is added. -/
theorem Module.WellFormed.addGuard {m : Module} (hw : m.WellFormed)
    (hs : m.types.size < UInt32.size) : (addGuard m).WellFormed := by
  obtain ⟨guard, henters⟩ : ∃ guard, m.Enters (MiddleEnd.addGuard m) none [guard] := by
    refine ⟨_, .declare rfl rfl (.unchanged rfl rfl rfl) ?_ ?_ rfl⟩
    · simp [coreCheck]
    · exact AccessorsAt.append (.of_none rfl) (.of_none rfl)
  obtain ⟨new, hadds, -⟩ := henters.adds (by
    unfold MiddleEnd.addGuard
    rw [size_modifyType, size_addType]
    exact hs) nofun
  exact hw.adds hadds

namespace Lowering

/-- A bank with a vault in it, and a lock in the vault; the bank shows its balance. -/
def bankWithVault : CodeTree.CompileUnit :=
  Sample.unitWith "Bank" [
    { Sample.classNamed "Bank" with members := [
      (CodeTree.MemberForm.field Sample.balance).node,
      (CodeTree.MemberForm.nestedType { Sample.structNamed "Vault" with members := [
        (CodeTree.MemberForm.nestedType (Sample.classNamed "Lock")).node] }).node,
      (CodeTree.MemberForm.property {
        name := "Balance", type := Sample.int32, hasGet := true, hasSet := true,
        getStatements := [Sample.returns (Sample.ownField "balance")] }).node] },
    Sample.structNamed "Branch"]

def besideGuard : LoweringState AssemblyTable where
  module := addGuard { id := ⟨0⟩, name := "Core" }
  errors := []
  trace := []
  host := .standard

theorem unit_wellFormed_bankWithVault :
    besideGuard.module.WellFormed ∧
    (unit AssemblyTable.host bankWithVault besideGuard).2.module.types.size = 5 ∧
    (unit AssemblyTable.host bankWithVault besideGuard).2.module.WellFormed ∧
    (unit AssemblyTable.host bankWithVault besideGuard).2.module.topLevel =
      [⟨⟨0⟩, ⟨0⟩⟩, ⟨⟨0⟩, ⟨1⟩⟩, ⟨⟨0⟩, ⟨4⟩⟩] := by
  have hw : besideGuard.module.WellFormed :=
    (Module.wellFormed_empty ⟨0⟩ "Core").addGuard (by decide)
  have hsize : (unit AssemblyTable.host bankWithVault besideGuard).2.module.types.size = 5 := by
    decide +kernel
  obtain ⟨hwell, -, htop⟩ :=
    unit_wellFormed AssemblyTable.host bankWithVault besideGuard hw (by rw [hsize]; decide)
  refine ⟨hw, hsize, hwell, htop.trans ?_⟩
  decide +kernel

end Lowering

end MiddleEnd
