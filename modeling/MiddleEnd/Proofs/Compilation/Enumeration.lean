/-
  The methods of a lowered unit. In a well-formed module a type is nested in one other at most, and
  behind it, so nesting has no cycle, and types that are not nested lead to all types of the module,
  to each on one way. A unit that is lowered into a fresh module lists exactly the types that are
  not nested, so every method of every type of the module is enumerated, and each once
  (`unitMethods_exact`).
-/
import Mathlib.Data.List.Nodup
import MiddleEnd.Proofs.Compilation.Closed
import MiddleEnd.Proofs.Lowering.Nesting
import MiddleEnd.Proofs.Universe.Preorder

namespace MiddleEnd

namespace Universe

/-! ## The methods of a type -/

theorem methodPositions_eq (members : List Member) : methodPositions members =
    (members.zipIdx.filter fun entry => entry.1.method?.isSome).map Prod.snd := by
  rw [← List.filterMap_eq_map, List.filterMap_filter]
  rfl

theorem nodup_methodPositions (members : List Member) : (methodPositions members).Nodup := by
  rw [methodPositions_eq]
  have hall : (members.zipIdx.map Prod.snd).Nodup := by
    rw [List.zipIdx_map_snd]
    exact List.nodup_range'
  exact hall.sublist (List.filter_sublist.map Prod.snd)

theorem mem_methodPositions {members : List Member} {i : Nat} :
    i ∈ methodPositions members ↔
      ∃ member, members[i]? = some member ∧ member.method?.isSome = true := by
  rw [methodPositions_eq]
  simp [List.mem_zipIdx_iff_getElem?]

variable {u : Universe}

theorem mem_methodsOf {id : TypeId} {ref : MemberRef} :
    ref ∈ u.methodsOf id ↔ ref.type = id ∧ ∃ node member, u.type? id = some node ∧
      node.members[ref.index]? = some member ∧ member.method?.isSome = true := by
  obtain ⟨type, index⟩ := ref
  unfold methodsOf
  rcases u.type? id with _ | node
  · simp
  · simp only [ownMethods, List.mem_map, mem_methodPositions, MemberRef.mk.injEq, Option.some.injEq]
    constructor
    · rintro ⟨i, ⟨member, hat, hm⟩, rfl, rfl⟩
      exact ⟨rfl, node, member, rfl, hat, hm⟩
    · rintro ⟨rfl, _, member, rfl, hat, hm⟩
      exact ⟨index, ⟨member, hat, hm⟩, rfl, rfl⟩

theorem nodup_methodsOf (id : TypeId) : (u.methodsOf id).Nodup := by
  unfold methodsOf
  split
  · refine (nodup_methodPositions _).map fun i j h => ?_
    exact (MemberRef.mk.inj h).2
  · exact List.nodup_nil

/-- No method is listed twice if no type is. -/
theorem nodup_flatMap_methodsOf {met : List TypeId} (h : met.Nodup) :
    (met.flatMap u.methodsOf).Nodup := by
  refine List.nodup_flatMap.mpr ⟨fun id _ => nodup_methodsOf id, h.imp fun hne ref href href' => ?_⟩
  exact hne ((mem_methodsOf.mp href).1.symm.trans (mem_methodsOf.mp href').1)

end Universe

/-! ## Types of a well-formed module -/

namespace Module

/-- The type is declared in the other one. -/
def DeclaredIn (m : Module) (inner outer : TypeId) : Prop :=
  ∃ t, m.type? inner = some t ∧ t.declaringType = some outer

variable {m : Module} {u : Universe}

theorem rightUnique_declaredIn (m : Module) : Relator.RightUnique m.DeclaredIn := by
  rintro inner outer outer' ⟨t, ht, ho⟩ ⟨t', ht', ho'⟩
  obtain rfl := Option.some.inj (ht.symm.trans ht')
  exact Option.some.inj (ho.symm.trans ho')

theorem type?_eq_of_module (hm : u.module? m.id = some m) {id : TypeId} (hid : id.module = m.id) :
    u.type? id = m.type? id := by
  unfold Universe.type?
  rw [hid, hm]
  rfl

theorem type?_of_module (hm : u.module? m.id = some m) {id : TypeId} {t : TypeNode}
    (ht : m.type? id = some t) : u.type? id = some t := by
  rw [type?_eq_of_module hm (type?_eq_some.mp ht).1, ht]

namespace WellFormed

variable (hw : m.WellFormed) (hm : u.module? m.id = some m)

include hw

theorem mem_topLevel {id : TypeId} :
    id ∈ m.topLevel ↔ ∃ t, m.type? id = some t ∧ t.declaringType = none := by
  rw [hw.topLevel, mem_declaredIn]
  constructor
  · rintro ⟨i, t, hi, ho, rfl⟩
    exact ⟨t, type?_eq_some.mpr ⟨rfl, by simpa using hi⟩, ho⟩
  · rintro ⟨t, ht, ho⟩
    obtain ⟨hid, hat⟩ := type?_eq_some.mp ht
    exact ⟨id.index.index, t, hat, ho, by rw [Nat.zero_add, ← hid]⟩

theorem index_le {inner outer : TypeId} (h : Relation.ReflTransGen m.DeclaredIn inner outer) :
    outer.index.index ≤ inner.index.index := by
  induction h with
  | refl => exact Nat.le_refl _
  | tail _ hstep ih =>
      obtain ⟨t, ht, ho⟩ := hstep
      exact Nat.le_trans (Nat.le_of_lt (hw.behind ht ho)) ih

/-- Of two types that are declared in the same place, none is nested in the other. -/
theorem apart {a b : TypeId} {ta tb : TypeNode} (ha : m.type? a = some ta)
    (hb : m.type? b = some tb) (hd : ta.declaringType = tb.declaringType) (hne : a ≠ b) :
    ¬Relation.ReflTransGen m.DeclaredIn a b := by
  intro h
  rcases h.cases_head with rfl | ⟨outer, ⟨t, ht, ho⟩, hrest⟩
  · exact hne rfl
  · obtain rfl := Option.some.inj (ha.symm.trans ht)
    exact absurd (hw.index_le hrest) (Nat.not_le.mpr (hw.behind hb (hd.symm.trans ho)))

include hm

/-- Nesting stays in the module. -/
theorem declaredIn_of_nests {outer inner : TypeId} (ho : outer.module = m.id)
    (h : u.Nests outer inner) : inner.module = m.id ∧ m.DeclaredIn inner outer := by
  obtain ⟨node, hn, hinner⟩ := h
  rw [type?_eq_of_module hm ho] at hn
  obtain ⟨t, ht, hd⟩ := hw.nested.mpr ⟨node, hn, hinner⟩
  exact ⟨(type?_eq_some.mp ht).1, t, ht, hd⟩

theorem chain_of_nests {outer inner : TypeId} (ho : outer.module = m.id)
    (h : Relation.ReflTransGen u.Nests outer inner) :
    inner.module = m.id ∧ Relation.ReflTransGen m.DeclaredIn inner outer := by
  induction h with
  | refl => exact ⟨ho, .refl⟩
  | tail _ hstep ih =>
      obtain ⟨hinner, hd⟩ := hw.declaredIn_of_nests hm ih.1 hstep
      exact ⟨hinner, .head hd ih.2⟩

theorem no_cycle {id : TypeId} (hid : id.module = m.id) : ¬Relation.TransGen u.Nests id id := by
  intro h
  obtain ⟨inner, hstep, hrest⟩ := Relation.TransGen.head'_iff.mp h
  obtain ⟨hinner, t, ht, hd⟩ := hw.declaredIn_of_nests hm hid hstep
  have hle := hw.index_le (hw.chain_of_nests hm hinner hrest).2
  exact absurd hle (Nat.not_le.mpr (hw.behind ht hd))

/-- Types that are declared in the same place lead to each type on one way. -/
theorem nodup_of_inPreorder {ids met : List TypeId} {outer : Option TypeId}
    (h : u.InPreorder ids met) (hids : ids.Nodup)
    (hd : ∀ id ∈ ids, ∃ t, m.type? id = some t ∧ t.declaringType = outer) : met.Nodup := by
  induction h generalizing outer with
  | nil => exact List.nodup_nil
  | @cons id node ids inner rest hn hinner hrest ih ih' =>
      obtain ⟨hnew, hids⟩ := List.nodup_cons.mp hids
      obtain ⟨⟨t, ht, ho⟩, hd⟩ := List.forall_mem_cons.mp hd
      have hid : id.module = m.id := (type?_eq_some.mp ht).1
      have hnode : m.type? id = some node := by rw [← type?_eq_of_module hm hid, hn]
      have hnested : inner.Nodup :=
        ih (hw.once hnode) fun id' hid' => hw.nested.mpr ⟨node, hnode, hid'⟩
      -- what is met with the type is nested in it
      have hfirst : ∀ x ∈ inner, Relation.TransGen u.Nests id x := by
        intro x hx
        obtain ⟨root, hroot, hchain⟩ := hinner.mem_iff.mp hx
        exact .head' ⟨node, hn, hroot⟩ hchain
      have hapart : ∀ x ∈ rest, ¬Relation.ReflTransGen u.Nests id x := by
        intro x hx hchain
        obtain ⟨root, hroot, hchain'⟩ := hrest.mem_iff.mp hx
        obtain ⟨t', ht', ho'⟩ := hd root hroot
        have hne : id ≠ root := fun heq => hnew (heq ▸ hroot)
        have hup := (hw.chain_of_nests hm hid hchain).2
        have hup' := (hw.chain_of_nests hm (type?_eq_some.mp ht').1 hchain').2
        rcases Relation.ReflTransGen.total_of_right_unique (rightUnique_declaredIn m) hup hup' with
          h | h
        · exact hw.apart ht ht' (ho.trans ho'.symm) hne h
        · exact hw.apart ht' ht (ho'.trans ho.symm) hne.symm h
      refine List.nodup_cons.mpr ⟨fun hmem => ?_, List.nodup_append.mpr ⟨hnested, ih' hids hd, ?_⟩⟩
      · rcases List.mem_append.mp hmem with hmem | hmem
        · exact hw.no_cycle hm hid (hfirst id hmem)
        · exact hapart id hmem .refl
      · rintro x hx y hy rfl
        exact hapart x hy (hfirst x hx).to_reflTransGen

variable {unit : CompilationUnit} (hl : unit.root.allTypes = m.topLevel)

include hl

/-- Types that are not nested lead to all types of the module, and to no others. -/
theorem reached_iff {id : TypeId} : u.Reached unit id ↔ ∃ t, m.type? id = some t := by
  constructor
  · intro h
    induction h with
    | listed hid =>
        obtain ⟨t, ht, -⟩ := hw.mem_topLevel.mp (hl ▸ hid)
        exact ⟨t, ht⟩
    | nested _ hn hinner ih =>
        obtain ⟨t, ht⟩ := ih
        obtain ⟨-, t', ht', -⟩ :=
          hw.declaredIn_of_nests hm (type?_eq_some.mp ht).1 ⟨_, hn, hinner⟩
        exact ⟨t', ht'⟩
  · rintro ⟨t, ht⟩
    induction hi : id.index.index using Nat.strongRecOn generalizing id t with
    | ind i ih =>
        rcases ho : t.declaringType with _ | outer
        · exact .listed (hl ▸ hw.mem_topLevel.mpr ⟨t, ht, ho⟩)
        · obtain ⟨t', ht', hinner⟩ := hw.nested.mp ⟨t, ht, ho⟩
          have hreached := ih outer.index.index (hi ▸ hw.behind ht ho) t' ht' rfl
          exact .nested hreached (type?_of_module hm ht') hinner

theorem nestsWithoutCycle : u.NestsWithoutCycle unit := by
  intro id hid
  obtain ⟨t, ht⟩ := (hw.reached_iff hm hl).mp hid
  exact hw.no_cycle hm (type?_eq_some.mp ht).1

/-- A unit that lists the types which are not nested: each method of the module is enumerated, and
    once. -/
theorem unitMethods_ok : ∃ refs, u.unitMethods unit = .ok refs ∧ refs.Nodup ∧
    ∀ ref, ref ∈ refs ↔ ∃ t member, m.type? ref.type = some t ∧
      t.members[ref.index]? = some member ∧ member.method?.isSome = true := by
  have hcycle := hw.nestsWithoutCycle hm hl
  rcases h : u.unitMethods unit with e | refs
  · obtain ⟨id, -, hid, hmissing⟩ := Universe.missing_of_unitMethods h
    obtain ⟨t, ht⟩ := (hw.reached_iff hm hl).mp hid
    rw [type?_of_module hm ht] at hmissing
    cases hmissing
  · obtain ⟨met, hmet, rfl⟩ := Universe.inPreorder_of_unitMethods hcycle h
    have hroots : ∀ id ∈ unit.root.allTypes, ∃ t, m.type? id = some t ∧ t.declaringType = none :=
      fun id hid => hw.mem_topLevel.mp (hl ▸ hid)
    have honce : unit.root.allTypes.Nodup := by
      rw [hl, hw.topLevel]
      exact nodup_declaredIn
    have hmem : ∀ id, id ∈ met ↔ ∃ t, m.type? id = some t := fun id =>
      hmet.mem_iff.trans (Universe.reached_iff.symm.trans (hw.reached_iff hm hl))
    refine ⟨_, rfl, Universe.nodup_flatMap_methodsOf (hw.nodup_of_inPreorder hm hmet honce hroots),
      fun ref => ?_⟩
    rw [List.mem_flatMap]
    constructor
    · rintro ⟨id, hid, href⟩
      obtain ⟨rfl, node, member, hn, hat, hmethod⟩ := Universe.mem_methodsOf.mp href
      obtain ⟨t, ht⟩ := (hmem _).mp hid
      obtain rfl := Option.some.inj ((type?_of_module hm ht).symm.trans hn)
      exact ⟨t, member, ht, hat, hmethod⟩
    · rintro ⟨t, member, ht, hat, hmethod⟩
      exact ⟨ref.type, (hmem _).mpr ⟨t, ht⟩,
        Universe.mem_methodsOf.mpr ⟨rfl, t, member, type?_of_module hm ht, hat, hmethod⟩⟩

end WellFormed

end Module

namespace Lowering

/-- Behind lowering into a fresh module, this is well formed, and the unit lists its types that are
    not nested. -/
theorem unit_fresh {σ : Type} (host : Host σ) (tree : CodeTree.CompileUnit) (id : ModuleId)
    (name : String) (errors : Sink) (state : σ) :
    let lowered := unit host tree { module := { id, name }, errors, trace := [], host := state }
    lowered.2.module.types.size ≤ UInt32.size → lowered.2.module.WellFormed ∧
      lowered.2.module.id = id ∧ lowered.1.root.allTypes = lowered.2.module.topLevel := by
  intro lowered hs
  obtain ⟨roots, henters, hroots⟩ := unit_enters host tree
    { module := { id, name }, errors, trace := [], host := state }
  obtain ⟨new, hadds, hnew⟩ := henters.adds hs nofun
  refine ⟨(Module.wellFormed_empty id name).adds hadds, hadds.id_eq, ?_⟩
  rw [← hroots, ← hnew, hadds.topLevel_eq]
  rfl

end Lowering

/-- Where nesting has no cycle, the loop over a stack comes to an end with the methods of the unit.
    It fails exactly if a type is missing that the unit reaches, and with such a type; otherwise it
    lists the methods of a type, then those of the types nested in it, and so on in the order of the
    unit. A tree that is lowered into a fresh module is nested so, and what is listed for it are all
    methods of all types of the module, each once. -/
theorem unitMethods_exact {σ : Type} :
    (∀ (u : Universe) (unit : CompilationUnit), u.NestsWithoutCycle unit →
      (∃ turns, ∀ more, u.sweep (turns + more) unit.root.allTypes.reverse [] =
        some (u.unitMethods unit)) ∧
      ((∃ e, u.unitMethods unit = .error e) ↔ ∃ id, u.Reached unit id ∧ u.type? id = none) ∧
      (∀ e, u.unitMethods unit = .error e →
        ∃ id, e = .danglingType id ∧ u.Reached unit id ∧ u.type? id = none) ∧
      ∀ refs, u.unitMethods unit = .ok refs ↔
        ∃ met, u.InPreorder unit.root.allTypes met ∧ refs = met.flatMap u.methodsOf) ∧
    ∀ (u : Universe) (id : ModuleId) (name : String) (host : Host σ)
      (tree : CodeTree.CompileUnit) (errors : Sink) (state : σ),
      u.module? id = some { id, name } →
        let l := u.lowerInto { id, name } host tree errors state
        ∃ m, l.types.module? id = some m ∧ (m.types.size ≤ UInt32.size →
          l.types.NestsWithoutCycle l.unit ∧
          ∃ refs, l.types.unitMethods l.unit = .ok refs ∧ refs.Nodup ∧
            ∀ ref, ref ∈ refs ↔ ∃ t member, m.type? ref.type = some t ∧
              t.members[ref.index]? = some member ∧ member.method?.isSome = true) := by
  constructor
  · intro u unit hu
    exact ⟨Universe.sweep_eq_unitMethods hu, Universe.unitMethods_fails_iff hu,
      fun e he => Universe.missing_of_unitMethods he, fun refs => Universe.unitMethods_eq_ok_iff hu⟩
  · intro u id name host tree errors state hm l
    have hmodule : l.types.module? id = _ :=
      Universe.module?_lowerInto host tree errors state hm
    refine ⟨_, hmodule, fun hs => ?_⟩
    obtain ⟨hw, hid, hl⟩ := Lowering.unit_fresh host tree id name errors state hs
    have hmodule' : l.types.module? _ = some _ := (congrArg l.types.module? hid).trans hmodule
    exact ⟨hw.nestsWithoutCycle hmodule' hl, hw.unitMethods_ok hmodule' hl⟩

/-- A bank with nested types, next to the core library. -/
def loweredBank : Lowered AssemblyTable :=
  (coreUniverse.newModule "App").1.lowerInto { id := ⟨1⟩, name := "App" } AssemblyTable.host
    Lowering.bankWithVault [] AssemblyTable.standard

theorem unitMethods_exact_loweredBank :
    (coreUniverse.newModule "App").1.module? ⟨1⟩ = some { id := ⟨1⟩, name := "App" } ∧
    (loweredBank.types.module? ⟨1⟩).map (·.types.size) = some 4 ∧
    loweredBank.types.NestsWithoutCycle loweredBank.unit ∧
    ∃ refs, loweredBank.types.unitMethods loweredBank.unit = .ok refs ∧ refs.Nodup ∧
      ∃ turns, loweredBank.types.sweep turns loweredBank.unit.root.allTypes.reverse [] =
        some (.ok refs) := by
  obtain ⟨hall, hlowered⟩ := unitMethods_exact (σ := AssemblyTable)
  have hfresh : (coreUniverse.newModule "App").1.module? ⟨1⟩ = some { id := ⟨1⟩, name := "App" } :=
    rfl
  have hsize : (loweredBank.types.module? ⟨1⟩).map (·.types.size) = some 4 := by decide +kernel
  obtain ⟨m, hm, hmethods⟩ := hlowered _ ⟨1⟩ "App" AssemblyTable.host Lowering.bankWithVault []
    AssemblyTable.standard hfresh
  obtain ⟨m', hm', hs⟩ := Option.map_eq_some_iff.mp hsize
  obtain rfl : m' = m := Option.some.inj (hm'.symm.trans hm)
  obtain ⟨hcycle, refs, hrefs, hnodup, -⟩ := hmethods (by rw [hs]; decide)
  obtain ⟨⟨turns, hsweep⟩, -⟩ := hall loweredBank.types loweredBank.unit hcycle
  exact ⟨hfresh, hsize, hcycle, refs, hrefs, hnodup, turns, (hsweep 0).trans (congrArg some hrefs)⟩

end MiddleEnd
