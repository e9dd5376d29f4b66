/-
  Which types lowering enters into a module, and what it makes of their declarations. A declaration
  enters its type first and the types nested in it behind, then the type gets its members; a
  delegate has none. So the new types of a module stand in the order of their declarations in the
  tree, one for each of them (`unit_gains`), as long as positions do not wrap around.
-/
import Mathlib.Data.List.Forall2
import MiddleEnd.Proofs.Lowering.Accounting
import MiddleEnd.Proofs.Universe.Nesting

namespace MiddleEnd

/-! ## Declarations in a tree -/

namespace CodeTree

mutual

/-- The declaration and those nested in it, from left to right. Members of a delegate do not
    count. -/
def TypeDeclaration.entered : TypeDeclaration → List TypeDeclaration
  | ⟨name, kind, attributes, baseTypes, members, customAttributes, source⟩ =>
    ⟨name, kind, attributes, baseTypes, members, customAttributes, source⟩ ::
      if kind.isDelegate then [] else membersEntered members

def membersEntered : List Member → List TypeDeclaration
  | [] => []
  | m :: ms => m.entered ++ membersEntered ms

def Member.entered : Member → List TypeDeclaration
  | ⟨.nestedType d, _⟩ => d.entered
  | ⟨.unrecognized _, _⟩ | ⟨.field _, _⟩ | ⟨.method _, _⟩ | ⟨.entryPoint _, _⟩
  | ⟨.constructor _, _⟩ | ⟨.property _, _⟩ | ⟨.event _, _⟩ | ⟨.snippet _ _, _⟩ => []

end

def Namespace.entered (n : Namespace) : List TypeDeclaration :=
  n.types.flatMap TypeDeclaration.entered

def CompileUnit.entered (u : CompileUnit) : List TypeDeclaration :=
  u.namespaces.flatMap Namespace.entered

end CodeTree

/-! ## Types for declarations -/

/-- A type that is there is found with the change. -/
theorem Module.type?_modifyType {m : Module} {id : TypeId} (h : m.HasType id)
    (f : TypeNode → TypeNode) : ∃ t, (m.modifyType id f).type? id = some (f t) := by
  have hlt : id.index.index < m.types.toList.length := by
    rw [Arena.length_toList]
    exact h.2
  refine ⟨m.types.toList[id.index.index], Module.type?_eq_some.mpr ⟨?_, ?_⟩⟩
  · exact h.1.trans (Module.grows_modifyType m id f).id_eq.symm
  · rw [Module.toList_modifyType h.1, List.getElem?_modify_eq, List.getElem?_eq_getElem hlt]
    rfl

section

variable (R : CodeTree.TypeDeclaration → TypeNode → Prop)

/-- The module with one more type for each declaration. As long as positions do not wrap around,
    these stand behind the others, and each is what `R` says of its declaration. -/
structure Module.Gains (m m' : Module) (ds : List CodeTree.TypeDeclaration) : Prop where
  id_eq : m'.id = m.id
  size_eq : m'.types.size = m.types.size + ds.length
  types : m'.types.size ≤ UInt32.size →
    ∃ new, m'.types.toList = m.types.toList ++ new ∧ List.Forall₂ R ds new

end

namespace Module.Gains

variable {R : CodeTree.TypeDeclaration → TypeNode → Prop} {m m' m'' : Module}
  {ds ds' : List CodeTree.TypeDeclaration} {d : CodeTree.TypeDeclaration}

theorem unchanged (hid : m'.id = m.id) (ht : m'.types = m.types) : m.Gains R m' [] := by
  refine ⟨hid, by rw [ht]; rfl, fun _ => ⟨[], ?_, .nil⟩⟩
  rw [ht, List.append_nil]

theorem trans (h : m.Gains R m' ds) (h' : m'.Gains R m'' ds') : m.Gains R m'' (ds ++ ds') := by
  refine ⟨h'.id_eq.trans h.id_eq, ?_, fun hs => ?_⟩
  · rw [h'.size_eq, h.size_eq, List.length_append, Nat.add_assoc]
  · obtain ⟨new, hnew, hR⟩ := h.types (by rw [h'.size_eq] at hs; omega)
    obtain ⟨new', hnew', hR'⟩ := h'.types hs
    exact ⟨new ++ new', by rw [hnew', hnew, List.append_assoc], List.rel_append hR hR'⟩

theorem hasType (h : m.Gains R m' ds) {id : TypeId} (hid : m.HasType id) : m'.HasType id := by
  refine ⟨hid.1.trans h.id_eq.symm, Nat.lt_of_lt_of_le hid.2 ?_⟩
  rw [h.size_eq]
  exact Nat.le_add_right _ _

theorem addType {t : TypeNode} (hR : R d t) : m.Gains R (m.addType t).1 [d] :=
  ⟨rfl, Module.size_addType m t, fun _ => ⟨[t], Module.toList_addType m t, .cons hR .nil⟩⟩

/-- A type, the types that are nested in it, and then its members. -/
theorem declare {t : TypeNode} {members : List Member} (h : (m.addType t).1.Gains R m' ds)
    (hR : R d { t with members }) :
    m.Gains R (m'.modifyType (m.addType t).2 fun t => { t with members }) (d :: ds) := by
  have hsize := h.size_eq
  rw [size_addType] at hsize
  refine ⟨(grows_modifyType m' _ _).id_eq.trans h.id_eq, ?_, fun hs => ?_⟩
  · rw [size_modifyType, hsize, List.length_cons]
    omega
  · rw [size_modifyType] at hs
    obtain ⟨new, hnew, hall⟩ := h.types hs
    refine ⟨{ t with members } :: new, ?_, .cons hR hall⟩
    -- the type stands where the module ended, and behind it what is nested in it
    rw [toList_modifyType h.id_eq.symm, hnew, toList_addType, List.append_assoc,
      addType_id (by omega)]
    show (m.types.toList ++ t :: new).modify m.types.size _ = _
    rw [← Arena.length_toList, modify_behind]

end Module.Gains

namespace Lower

variable {σ α β : Type} {R : CodeTree.TypeDeclaration → TypeNode → Prop}
  {ds ds' : List CodeTree.TypeDeclaration}

/-- Whatever the state, the module gains types for the declarations. -/
def Gains (R : CodeTree.TypeDeclaration → TypeNode → Prop) (action : Lower σ α)
    (ds : List CodeTree.TypeDeclaration) : Prop :=
  ∀ s : LoweringState σ, s.module.Gains R (action s).2.module ds

namespace Gains

theorem pure (a : α) : Lower.Gains R (Pure.pure a : Lower σ α) [] := fun _ => .unchanged rfl rfl

theorem bind {action : Lower σ α} {next : α → Lower σ β} (h : action.Gains R ds)
    (hn : ∀ a, (next a).Gains R ds') : Lower.Gains R (action >>= next) (ds ++ ds') :=
  fun s => (h s).trans (hn _ (action s).2)

/-- An action that leaves the module alone. -/
theorem of_yields {action : Lower σ α} {post : α → Prop} (h : action.Yields post) :
    action.Gains R [] :=
  fun s => .unchanged (by rw [(h s).2]) (by rw [(h s).2])

/-- First an action that leaves the module alone. -/
theorem behind {action : Lower σ α} {next : α → Lower σ β} {post : α → Prop}
    (h : action.Yields post) (hn : ∀ a, (next a).Gains R ds) :
    Lower.Gains R (action >>= next) ds :=
  (of_yields h).bind hn

/-- The result of an action, put into a node. -/
theorem into {action : Lower σ α} (h : action.Gains R ds) (f : α → β) :
    Lower.Gains R (action >>= fun a => Pure.pure (f a)) ds := by
  simpa using h.bind fun a => pure (f a)

theorem get {next : LoweringState σ → Lower σ β} (hn : ∀ s, (next s).Gains R ds) :
    Lower.Gains R (MonadState.get >>= next) ds :=
  fun s => hn s s

/-- First a change of the module that leaves its types alone. -/
theorem modifyModule {f : Module → Module} {next : Unit → Lower σ β}
    (hid : ∀ m, (f m).id = m.id) (ht : ∀ m, (f m).types = m.types)
    (hn : ∀ a, (next a).Gains R ds) : Lower.Gains R (Lower.modifyModule f >>= next) ds :=
  fun s => (Module.Gains.unchanged (hid s.module) (ht s.module)).trans
    (hn () { s with module := f s.module })

theorem mapM {f : α → Lower σ β} {dsOf : α → List CodeTree.TypeDeclaration}
    (h : ∀ a, (f a).Gains R (dsOf a)) (as : List α) :
    Lower.Gains R (as.mapM f) (as.flatMap dsOf) := by
  induction as with
  | nil =>
      rw [List.mapM_nil]
      exact pure []
  | cons a as ih =>
      rw [List.mapM_cons]
      exact (h a).bind fun b => ih.into (b :: ·)

end Gains

end Lower

namespace Lowering

open CodeTree (TypeDeclaration membersEntered)

variable {σ : Type} (host : Host σ)

/-! ## What a declaration becomes -/

/-- What the type of a declaration has before its members are there. -/
structure Heads (d : TypeDeclaration) (t : TypeNode) : Prop where
  kind : ∃ s, t.kind = (typeKind host d.baseTypes d.kind s).1
  isSealed : t.flags.isSealed = ((typeFlags d.attributes).isSealed || d.kind.isDelegate)
  interfaces_eq : t.interfaces = interfaces d.baseTypes d.kind

/-- The type of a declaration. Its members are those that were lowered for it, in some state that
    the lowering came to, and a constructor if it needs one; `id` is where it stood then. -/
structure Declares (d : TypeDeclaration) (t : TypeNode) : Prop extends Heads host d t where
  members : ∃ id s, t.members = if d.kind.isDelegate then [] else
    withConstructor d.kind id (members host (ownerOf id d.kind) 0 d.members s).1

/-- A declaration adds a type without members. Unless it is a delegate, its members are lowered
    next, and the type gets them. -/
theorem typeDeclaration_run (ns : String) (outer : Option TypeId) (d : TypeDeclaration)
    (s : LoweringState σ) :
    ∃ node s₁, Heads host d node ∧ node.members = [] ∧
      s₁.module = (s.module.addType node).1 ∧
      (typeDeclaration host ns outer d s).1 = (s.module.addType node).2 ∧
      (typeDeclaration host ns outer d s).2.module =
        if d.kind.isDelegate then s₁.module else
          let id := (s.module.addType node).2
          let lowered := members host (ownerOf id d.kind) 0 d.members s₁
          lowered.2.module.modifyType id fun t =>
            { t with members := withConstructor d.kind id lowered.1 } := by
  obtain ⟨name, kind, modifiers, baseTypes, declared, customAttributes, source⟩ := d
  let s₀ := (attributes host customAttributes (typeKind host baseTypes kind s).2).2
  have hm : s₀.module = s.module :=
    (attributes_yields host customAttributes _).2.trans (typeKind_yields host baseTypes kind s).2
  let node : TypeNode := {
    kind := (typeKind host baseTypes kind s).1
    name
    namespaceName := ns
    declaringModule := s₀.module.id
    declaringType := outer
    flags := { typeFlags modifiers with
      isSealed := (typeFlags modifiers).isSealed || kind.isDelegate }
    interfaces := interfaces baseTypes kind
    attributes := (attributes host customAttributes (typeKind host baseTypes kind s).2).1
    source }
  have hheads : Heads host ⟨name, kind, modifiers, baseTypes, declared, customAttributes, source⟩
      node := ⟨⟨s, rfl⟩, rfl, rfl⟩
  refine ⟨node, { s₀ with module := (s₀.module.addType node).1 }, hheads, rfl, by rw [hm], ?_⟩
  rw [← hm, typeDeclaration]
  cases kind <;> exact ⟨rfl, rfl⟩

mutual

theorem typeDeclaration_gains (ns : String) (outer : Option TypeId) : (d : TypeDeclaration) →
    (typeDeclaration host ns outer d).Gains (Declares host) d.entered
  | ⟨name, kind, modifiers, baseTypes, declared, customAttributes, source⟩ => by
      intro s
      obtain ⟨node, s₁, hheads, hnone, hm, -, hrun⟩ := typeDeclaration_run host ns outer
        ⟨name, kind, modifiers, baseTypes, declared, customAttributes, source⟩ s
      rw [hrun, TypeDeclaration.entered]
      dsimp only
      split
      · rename_i hd
        rw [hm]
        exact .addType ⟨hheads, (s.module.addType node).2, s₁, by rw [hnone, if_pos hd]⟩
      · rename_i hd
        have hnested := members_gains (ownerOf (s.module.addType node).2 kind) 0 declared s₁
        rw [hm] at hnested
        exact .declare hnested ⟨⟨hheads.kind, hheads.isSealed, hheads.interfaces_eq⟩,
          (s.module.addType node).2, s₁, by rw [if_neg hd]⟩

theorem members_gains (owner : Owner) (position : Nat) : (ms : List CodeTree.Member) →
    (members host owner position ms).Gains (Declares host) (membersEntered ms)
  | [] => by
      rw [members, membersEntered]
      exact .pure []
  | m :: ms => by
      rw [members, membersEntered]
      exact .bind (member_gains owner position m) fun first =>
        (members_gains owner (position + first.length) ms).into _

theorem member_gains (owner : Owner) (position : Nat) : (m : CodeTree.Member) →
    (member host owner position m).Gains (Declares host) m.entered
  | ⟨.unrecognized kind, source⟩ => by
      rw [member, CodeTree.Member.entered]
      exact .behind (.unexpected kind source) fun _ => .pure _
  | ⟨.field d, source⟩ => by
      rw [member, CodeTree.Member.entered]
      exact .behind (fieldMember_yields host owner source d) fun _ => .pure _
  | ⟨.method d, source⟩ => by
      rw [member, CodeTree.Member.entered]
      exact .behind (methodMember_yields host owner source d.name d.attributes d) fun _ => .pure _
  | ⟨.entryPoint d, source⟩ => by
      rw [member, CodeTree.Member.entered]
      exact .behind (methodMember_yields host owner source "Main" .publicStatic d) fun _ => .pure _
  | ⟨.constructor d, source⟩ => by
      rw [member, CodeTree.Member.entered]
      exact .behind (constructorMember_yields host owner source d) fun _ => .pure _
  | ⟨.property d, source⟩ => by
      rw [member, CodeTree.Member.entered]
      exact .of_yields (propertyMembers_yields host owner source position d)
  | ⟨.event d, source⟩ => by
      rw [member, CodeTree.Member.entered]
      exact .behind (eventMember_yields host owner source d) fun _ => .pure _
  | ⟨.snippet text pragma, _⟩ => by
      rw [member, CodeTree.Member.entered]
      exact .behind (.snippetDocument host pragma text) fun _ => .pure _
  | ⟨.nestedType d, source⟩ => by
      rw [member, CodeTree.Member.entered]
      exact (typeDeclaration_gains "" (some owner.id) d).into _

end

/-- What is selected among the members of a type is related to what is selected among their
    declarations, one for one, if that is so for each member. -/
theorem members_forall₂ {α β : Type} {R : α → β → Prop} {declared? : CodeTree.Member → Option α}
    {view : List Member → List β} (hnil : view [] = [])
    (happend : ∀ first rest, view (first ++ rest) = view first ++ view rest) {owner : Owner}
    (h : ∀ position m s,
      List.Forall₂ R (declared? m).toList (view (member host owner position m s).1))
    (position : Nat) (ms : List CodeTree.Member) (s : LoweringState σ) :
    List.Forall₂ R (ms.filterMap declared?) (view (members host owner position ms s).1) := by
  induction ms generalizing position s with
  | nil =>
      rw [members]
      show List.Forall₂ R [] (view [])
      rw [hnil]
      exact .nil
  | cons m ms ih =>
      have hfirst := h position m s
      have hrest := ih (position + (member host owner position m s).1.length)
        (member host owner position m s).2
      have hsplit : (m :: ms).filterMap declared? =
          (declared? m).toList ++ ms.filterMap declared? := by
        rw [List.filterMap_cons]
        cases declared? m <;> rfl
      rw [members, hsplit]
      show List.Forall₂ R _ (view ((member ..).1 ++ (members ..).1))
      rw [happend]
      exact List.rel_append hfirst hrest

/-- Right behind its lowering, a declared type has the members that were lowered for it. -/
theorem typeDeclaration_members (ns : String) (outer : Option TypeId) (d : TypeDeclaration)
    (s : LoweringState σ) (hd : d.kind.isDelegate = false) :
    ∃ t s₁, (typeDeclaration host ns outer d s).2.module.type?
        (typeDeclaration host ns outer d s).1 = some t ∧
      t.members = withConstructor d.kind (typeDeclaration host ns outer d s).1
        (members host (ownerOf (typeDeclaration host ns outer d s).1 d.kind) 0 d.members s₁).1 := by
  obtain ⟨node, s₁, -, -, hm, hid, hrun⟩ := typeDeclaration_run host ns outer d s
  rw [hrun, hid, hd]
  have hnested := members_gains host (ownerOf (s.module.addType node).2 d.kind) 0 d.members s₁
  rw [hm] at hnested
  obtain ⟨t, ht⟩ := Module.type?_modifyType
    (hnested.hasType (Module.hasType_addType s.module node)) _
  exact ⟨_, s₁, ht, rfl⟩

/-! ## Units -/

theorem namespaceNode_gains (n : CodeTree.Namespace) :
    (namespaceNode host n).Gains (Declares host) n.entered :=
  (Lower.Gains.mapM (typeDeclaration_gains host n.name none) n.types).into _

theorem references_gains (seen names : List String) :
    (references host seen names).Gains (Declares host) [] := by
  induction names generalizing seen with
  | nil => exact .pure ()
  | cons name names ih =>
      rw [references]
      refine .behind (.ask _) fun answer => ?_
      split
      · split
        · exact .behind (.emit _) fun _ => ih seen
        · exact .modifyModule (fun _ => rfl) (fun _ => rfl) fun _ => ih _
      · exact .behind (.emit _) fun _ => .behind (.modify fun _ => rfl) fun _ => ih seen

/-- A unit adds one type for each declaration in its tree, in the order of the tree. -/
theorem unit_gains (u : CodeTree.CompileUnit) :
    (unit host u).Gains (Declares host) u.entered := by
  unfold unit
  refine .get fun s => .behind (attributes_yields host u.assemblyAttributes) fun _ => ?_
  refine .modifyModule (fun _ => rfl) (fun _ => rfl) fun _ => .get fun s₁ => ?_
  rw [← List.nil_append (CodeTree.CompileUnit.entered u)]
  refine .bind (references_gains host _ u.referencedAssemblies) fun _ => ?_
  rw [← List.append_nil (CodeTree.CompileUnit.entered u)]
  refine .bind (.mapM (namespaceNode_gains host) u.namespaces) fun namespaces => ?_
  dsimp only
  split
  · rw [pure_bind]
    exact .get fun s₂ => .behind (.emit _) fun _ => .pure _
  · rename_i snippet _
    refine .behind (unitSource_yields host snippet) fun source => ?_
    rw [pure_bind]
    exact .get fun s₂ => .behind (.emit _) fun _ => .pure _

end Lowering

end MiddleEnd
