/-
  Properties. A declared property becomes a run of members: its getter, its setter and then the
  property itself, each accessor only if it is declared. The property refers to its accessors by
  their positions, and these are counted while the members are lowered one after the other; they are
  the positions of the accessors among the members of the type, whatever is declared around the
  property (`typeDeclaration_properties`). Members of a delegate are dropped, properties among them
  (`gauge_loses_property`).
-/
import MiddleEnd.Proofs.Lowering.Entering
import MiddleEnd.Proofs.Lowering.Nesting

namespace MiddleEnd.Lowering

open CodeTree (PropertyDeclaration TypeDeclaration)

variable {σ : Type} (host : Host σ)

/-! ## The run of a property -/

/-- An accessor of a property. Its statements are lowered, in some state that the lowering came to,
    unless it is an accessor of an interface and not static. -/
structure IsAccessor (d : TypeDeclaration) (p : PropertyDeclaration) (name : String)
    (parameters : List Parameter) (returnType : TypeRef) (statements : List CodeTree.Stmt)
    (x : Member) (m : Method) : Prop where
  name_eq : x.name = name
  method : x.kind = .method m
  kind : m.kind = .ordinary
  parameters_eq : m.parameters = parameters
  returnType_eq : m.returnType = returnType
  flags : m.flags = { methodFlags p.attributes with specialName := true }
  implements : m.implementedTypes =
    implementedTypes p.privateImplementationType p.implementationTypes
  body : ∃ s, m.body = if d.kind.isInterface && !isStatic p.attributes then none else
    some { block := (block host statements s).1 }

/-- The members that a property becomes, the first of which stands at `position`. -/
structure PropertyRun (d : TypeDeclaration) (id : TypeId) (position : Nat) (p : PropertyDeclaration)
    (getter setter : Option Member) (x : Member) (q : Property) : Prop where
  hasGetter : getter.isSome = p.hasGet
  hasSetter : setter.isSome = p.hasSet
  name_eq : x.name = p.name
  property : x.kind = .property q
  type_eq : q.type = typeRef p.type
  parameters_eq : ∃ s, q.parameters = (parameters host p.parameters s).1
  implements : q.implementedTypes =
    implementedTypes p.privateImplementationType p.implementationTypes
  isStatic_eq : q.isStatic = isStatic p.attributes
  getter_eq : q.getter = getter.map fun _ => ⟨id, position⟩
  setter_eq : q.setter = setter.map fun _ => ⟨id, position + getter.toList.length⟩
  /-- The getter takes the parameters of the property. -/
  isGetter : ∀ g ∈ getter, ∃ m,
    IsAccessor host d p ("get_" ++ p.name) q.parameters q.type p.getStatements g m
  /-- The setter takes the new value too. -/
  isSetter : ∀ g ∈ setter, ∃ m, IsAccessor host d p ("set_" ++ p.name)
    (q.parameters ++ [{ name := "value", type := q.type }]) .void p.setStatements g m

theorem bodyOf_eq (id : TypeId) (kind : CodeTree.TypeKind) (flags : MethodFlags)
    (statements : List CodeTree.Stmt) (s : LoweringState σ) :
    (bodyOf host (ownerOf id kind) flags statements s).1 =
      if kind.isInterface && !flags.isStatic then none else
        some { block := (block host statements s).1 } := by
  rw [bodyOf, Owner.givesBody, ownerOf_isInterface]
  cases kind.isInterface <;> cases flags.isStatic <;> rfl

/-- An accessor without its body. -/
def accessorMethod (p : PropertyDeclaration) (parameters : List Parameter) (returnType : TypeRef) :
    Method where
  parameters
  returnType
  flags := { methodFlags p.attributes with specialName := true }
  implementedTypes := implementedTypes p.privateImplementationType p.implementationTypes

theorem accessor_eq (d : TypeDeclaration) (id : TypeId) (source : Option SourceContext)
    (p : PropertyDeclaration) (declared : Bool) (name : String) (parameters : List Parameter)
    (returnType : TypeRef) (statements : List CodeTree.Stmt) (s : LoweringState σ) :
    ∃ x, (accessor host (ownerOf id d.kind) source declared name
        (accessorMethod p parameters returnType) statements s).1 = Option.toList x ∧
      x.isSome = declared ∧
      ∀ g ∈ x, ∃ m, IsAccessor host d p name parameters returnType statements g m := by
  cases declared with
  | false => exact ⟨none, rfl, rfl, fun g h => absurd h (Option.not_mem_none g)⟩
  | true =>
      refine ⟨some _, rfl, rfl, ?_⟩
      rintro _ ⟨⟩
      exact ⟨_, rfl, rfl, rfl, rfl, rfl, rfl, rfl, s, bodyOf_eq host id d.kind _ statements s⟩

/-- A reference is there if what it refers to is. -/
theorem ite_some_eq_map {x : Option Member} {declared : Bool} (h : x.isSome = declared)
    (ref : MemberRef) : (if declared then some ref else none) = x.map fun _ => ref := by
  rw [← h]
  cases x <;> rfl

theorem propertyMembers_run (d : TypeDeclaration) (id : TypeId) (source : Option SourceContext)
    (position : Nat) (p : PropertyDeclaration) (s : LoweringState σ) :
    ∃ getter setter x q,
      (propertyMembers host (ownerOf id d.kind) source position p s).1 =
        getter.toList ++ setter.toList ++ [x] ∧
      PropertyRun host d id position p getter setter x q := by
  let owner := ownerOf id d.kind
  have hid : owner.id = id := by
    show (ownerOf id d.kind).id = id
    cases d.kind <;> rfl
  let ps := parameters host p.parameters s
  let type := typeRef p.type
  let getters := accessor host owner source p.hasGet ("get_" ++ p.name)
    (accessorMethod p ps.1 type) p.getStatements ps.2
  let setters := accessor host owner source p.hasSet ("set_" ++ p.name)
    (accessorMethod p (ps.1 ++ [{ name := "value", type }]) .void) p.setStatements getters.2
  let q : Property := {
    type
    parameters := ps.1
    getter := if p.hasGet then some ⟨owner.id, position⟩ else none
    setter := if p.hasSet then some ⟨owner.id, position + getters.1.length⟩ else none
    implementedTypes := implementedTypes p.privateImplementationType p.implementationTypes
    isStatic := isStatic p.attributes }
  let x : Member := {
    name := p.name
    declaringType := owner.id
    attributes := (attributes host p.customAttributes setters.2).1
    kind := .property q
    source }
  have hrun : (propertyMembers host owner source position p s).1 =
      getters.1 ++ setters.1 ++ [x] := rfl
  obtain ⟨getter, hgetter, hasGetter, isGetter⟩ :=
    accessor_eq host d id source p p.hasGet ("get_" ++ p.name) ps.1 type p.getStatements ps.2
  obtain ⟨setter, hsetter, hasSetter, isSetter⟩ :=
    accessor_eq host d id source p p.hasSet ("set_" ++ p.name) (ps.1 ++ [{ name := "value", type }])
      .void p.setStatements getters.2
  refine ⟨getter, setter, x, q, hrun.trans (by rw [hgetter, hsetter]), ?_⟩
  refine ⟨hasGetter, hasSetter, rfl, rfl, rfl, ⟨s, rfl⟩, rfl, rfl, ?_, ?_, isGetter, isSetter⟩
  · rw [← ite_some_eq_map hasGetter, ← hid]
  · rw [← ite_some_eq_map hasSetter, ← hid, ← hgetter]

/-! ## Properties among the members -/

theorem members_append (owner : Owner) (position : Nat) (pre post : List CodeTree.Member) :
    members host owner position (pre ++ post) = (do
      let first ← members host owner position pre
      let rest ← members host owner (position + first.length) post
      return first ++ rest) := by
  induction pre generalizing position with
  | nil =>
      rw [List.nil_append, members, pure_bind]
      exact (bind_pure _).symm
  | cons m pre ih =>
      rw [List.cons_append, members, members]
      simp only [ih, bind_assoc, pure_bind, List.length_append, Nat.add_assoc, List.append_assoc]

/-- A property becomes its run, between what stands before it and behind it. -/
theorem members_property (d : TypeDeclaration) (id : TypeId) (pre post : List CodeTree.Member)
    (p : PropertyDeclaration) (source : Option SourceContext) (s : LoweringState σ) :
    let before := (members host (ownerOf id d.kind) 0 pre s).1
    ∃ getter setter x q after,
      (members host (ownerOf id d.kind) 0 (pre ++ ⟨.property p, source⟩ :: post) s).1 =
        before ++ (getter.toList ++ setter.toList ++ [x]) ++ after ∧
      PropertyRun host d id before.length p getter setter x q := by
  let first := members host (ownerOf id d.kind) 0 pre s
  let position := 0 + first.1.length
  let run := propertyMembers host (ownerOf id d.kind) source position p first.2
  let rest := members host (ownerOf id d.kind) (position + run.1.length) post run.2
  have hsplit : (members host (ownerOf id d.kind) 0 (pre ++ ⟨.property p, source⟩ :: post) s).1 =
      first.1 ++ (run.1 ++ rest.1) := by
    simp only [members_append, members, member]
    rfl
  obtain ⟨getter, setter, x, q, hrun, h⟩ := propertyMembers_run host d id source position p first.2
  refine ⟨getter, setter, x, q, rest.1, ?_, Nat.zero_add first.1.length ▸ h⟩
  rw [hsplit, hrun, List.append_assoc first.1]

theorem withConstructor_eq_append (kind : CodeTree.TypeKind) (id : TypeId) (ms : List Member) :
    ∃ rest, withConstructor kind id ms = ms ++ rest := by
  unfold withConstructor
  split
  · exact ⟨_, rfl⟩
  · exact ⟨[], (List.append_nil ms).symm⟩

/-- The references of a property find the accessors of its run. -/
theorem PropertyRun.found {d : TypeDeclaration} {id : TypeId} {before after : List Member}
    {p : PropertyDeclaration} {getter setter : Option Member} {x : Member} {q : Property}
    (h : PropertyRun host d id before.length p getter setter x q) :
    let ms := before ++ (getter.toList ++ setter.toList ++ [x]) ++ after
    (∀ r ∈ q.getter, ms[r.index]? = getter) ∧ ∀ r ∈ q.setter, ms[r.index]? = setter := by
  refine ⟨fun r hr => ?_, fun r hr => ?_⟩
  · rw [h.getter_eq] at hr
    obtain ⟨g, rfl, rfl⟩ := Option.map_eq_some_iff.mp hr
    simp
  · rw [h.setter_eq] at hr
    obtain ⟨g, rfl, rfl⟩ := Option.map_eq_some_iff.mp hr
    simp

/-- Each property of a declared type that is no delegate becomes a run of members of the type. They
    stand behind what the declarations before it become, and the property refers to the accessors
    in the run. -/
theorem typeDeclaration_properties (ns : String) (outer : Option TypeId) (d : TypeDeclaration)
    (s : LoweringState σ) (hd : d.kind.isDelegate = false) :
    let id := (typeDeclaration host ns outer d s).1
    ∃ t s₁, (typeDeclaration host ns outer d s).2.module.type? id = some t ∧
      ∀ pre p source post, d.members = pre ++ ⟨.property p, source⟩ :: post →
        let before := (members host (ownerOf id d.kind) 0 pre s₁).1
        ∃ getter setter x q after,
          t.members = before ++ (getter.toList ++ setter.toList ++ [x]) ++ after ∧
          PropertyRun host d id before.length p getter setter x q ∧
          (∀ r ∈ q.getter, t.members[r.index]? = getter) ∧
          (∀ r ∈ q.setter, t.members[r.index]? = setter) := by
  intro id
  obtain ⟨t, s₁, ht, hmembers⟩ := typeDeclaration_members host ns outer d s hd
  refine ⟨t, s₁, ht, fun pre p source post hsplit => ?_⟩
  obtain ⟨getter, setter, x, q, after, hms, h⟩ :=
    members_property host d id pre post p source s₁
  obtain ⟨rest, hrest⟩ := withConstructor_eq_append d.kind id
    (members host (ownerOf id d.kind) 0 d.members s₁).1
  rw [hrest, hsplit, hms, List.append_assoc] at hmembers
  refine ⟨getter, setter, x, q, after ++ rest, hmembers, h, ?_⟩
  rw [hmembers]
  exact h.found

/-- Entries by number. -/
def entry : PropertyDeclaration where
  name := "Entry"
  attributes := Sample.publicMethod
  type := Sample.int32
  parameters := [{ name := "number", type := Sample.int32 }]
  hasGet := true
  hasSet := true

/-- What a ledger declares before its entries: something of unknown shape, a property that is only
    set, and a type. -/
def beforeEntries : List CodeTree.Member := [
  (CodeTree.MemberForm.unrecognized "Finalizer").node,
  (CodeTree.MemberForm.property { name := "Owner", type := Sample.int32, hasSet := true }).node,
  (CodeTree.MemberForm.nestedType (Sample.classNamed "Page")).node]

def ledger : TypeDeclaration :=
  { Sample.classNamed "Ledger" with
    members := beforeEntries ++ [(CodeTree.MemberForm.property entry).node] }

theorem typeDeclaration_properties_ledger :
    ledger.kind.isDelegate = false ∧
    (typeDeclaration AssemblyTable.host "Bank" none ledger besideGuard).1 = ⟨⟨0⟩, ⟨1⟩⟩ ∧
    ∃ t before getter setter x q after,
      (typeDeclaration AssemblyTable.host "Bank" none ledger besideGuard).2.module.type?
        ⟨⟨0⟩, ⟨1⟩⟩ = some t ∧
      t.members = before ++ (getter.toList ++ setter.toList ++ [x]) ++ after ∧
      PropertyRun AssemblyTable.host ledger ⟨⟨0⟩, ⟨1⟩⟩ before.length entry getter setter x q := by
  have hid : (typeDeclaration AssemblyTable.host "Bank" none ledger besideGuard).1 =
      ⟨⟨0⟩, ⟨1⟩⟩ := by
    decide +kernel
  obtain ⟨t, s₁, ht, hproperties⟩ :=
    typeDeclaration_properties AssemblyTable.host "Bank" none ledger besideGuard rfl
  obtain ⟨getter, setter, x, q, after, hms, h, -⟩ := hproperties beforeEntries entry none [] rfl
  rw [hid] at ht hms h
  exact ⟨rfl, hid, t, _, getter, setter, x, q, after, ht, hms, h⟩

/-- A delegate that declares a property. -/
def gauge : TypeDeclaration where
  name := "Gauge"
  kind := .delegateType [] none
  attributes := .publicType
  members := [(CodeTree.MemberForm.property entry).node]

theorem gauge_loses_property :
    gauge.members = [] ++ ⟨.property entry, none⟩ :: [] ∧
    (typeDeclaration AssemblyTable.host "Bank" none gauge besideGuard).1 = ⟨⟨0⟩, ⟨1⟩⟩ ∧
    ((typeDeclaration AssemblyTable.host "Bank" none gauge besideGuard).2.module.type?
      ⟨⟨0⟩, ⟨1⟩⟩).map (fun t => (t.name, t.members.length)) = some ("Gauge", 0) := by
  refine ⟨rfl, ?_⟩
  decide +kernel

end MiddleEnd.Lowering
