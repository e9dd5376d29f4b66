/-
  The types around a type. Each type is declared in at most one other, and without a cycle a chain
  of such steps is never longer than there are types (`length_le_typeCount`). So a search that makes
  as many steps comes to the end of it, and a method counts as visible from outside exactly if it
  and all types around it can be seen from there (`isExternallyVisible_eq_ok_true_iff`).
-/
import Mathlib.Logic.Relation
import MiddleEnd.Proofs.Universe.Lookup

namespace MiddleEnd.Universe

variable {u : Universe}

/-- The type is declared in the other one. -/
def DeclaredIn (u : Universe) (inner outer : TypeId) : Prop :=
  ∃ t, u.type? inner = some t ∧ t.declaringType = some outer

/-- No type is declared in itself, however deep. -/
def Acyclic (u : Universe) : Prop := ∀ id, ¬Relation.TransGen u.DeclaredIn id id

/-! ## How many types there are -/

/-- The position of every type, module by module. -/
def typeIds (u : Universe) : List TypeId :=
  u.modules.toList.zipIdx.flatMap fun entry =>
    (List.range entry.1.types.size).map fun index => ⟨⟨entry.2⟩, ⟨index⟩⟩

theorem length_typeIds (u : Universe) : u.typeIds.length = u.typeCount := by
  have hsizes : (u.modules.toList.zipIdx.map fun entry => entry.1.types.size) =
      u.modules.toList.map fun m => m.types.size :=
    calc (u.modules.toList.zipIdx.map fun entry => entry.1.types.size)
      _ = (u.modules.toList.zipIdx.map Prod.fst).map fun m => m.types.size := by
        rw [List.map_map]
        rfl
      _ = u.modules.toList.map fun m => m.types.size := by rw [List.zipIdx_map_fst]
  unfold typeIds typeCount
  simp only [List.length_flatMap, List.length_map, List.length_range]
  rw [hsizes, List.sum_eq_foldl, List.foldl_map]

theorem mem_typeIds {id : TypeId} {t : TypeNode} (h : u.type? id = some t) : id ∈ u.typeIds := by
  obtain ⟨⟨module⟩, ⟨index⟩⟩ := id
  obtain ⟨m, hm, ht⟩ := Option.bind_eq_some_iff.mp h
  have hmodule : u.modules.toList[module]? = some m := (Array.getElem?_toList).trans hm
  have hindex : index < m.types.size := by
    unfold Module.type? at ht
    split at ht
    · exact (Array.getElem?_eq_some_iff.mp ht).1
    · cases ht
  refine List.mem_flatMap.mpr ⟨(m, module), List.mem_zipIdx_iff_getElem?.mpr hmodule, ?_⟩
  exact List.mem_map.mpr ⟨index, List.mem_range.mpr hindex, rfl⟩

theorem length_le_typeCount {ids : List TypeId} (hn : ids.Nodup)
    (ht : ∀ id ∈ ids, ∃ t, u.type? id = some t) : ids.length ≤ u.typeCount := by
  rw [← length_typeIds]
  apply hn.length_le_of_subset
  intro id hid
  obtain ⟨t, h⟩ := ht id hid
  exact mem_typeIds h

/-- It is enough that each type stands behind the type around it. -/
theorem acyclic_of_behind
    (h : ∀ id ∈ u.typeIds, ∀ outer ∈ (u.type? id).bind TypeNode.declaringType,
      outer.index.index < id.index.index) : u.Acyclic := by
  have hlt {inner outer : TypeId} (hchain : Relation.TransGen u.DeclaredIn inner outer) :
      outer.index.index < inner.index.index := by
    have hstep {inner outer : TypeId} (hd : u.DeclaredIn inner outer) :
        outer.index.index < inner.index.index := by
      obtain ⟨t, ht, hd⟩ := hd
      apply h inner (mem_typeIds ht)
      rw [ht]
      exact hd
    induction hchain with
    | single hd => exact hstep hd
    | tail _ hd ih => exact Nat.lt_trans (hstep hd) ih
  exact fun id hchain => Nat.lt_irrefl _ (hlt hchain)

/-! ## Visibility -/

/-- The type and all types around it can be seen from outside. -/
def TypeVisible (u : Universe) (id : TypeId) : Prop :=
  ∀ outer, Relation.ReflTransGen u.DeclaredIn id outer →
    ∃ t, u.type? outer = some t ∧ t.flags.visibility.isVisibleOutside = true

/-- The method and all types around it can be seen from outside. -/
def MethodVisible (u : Universe) (ref : MemberRef) : Prop :=
  (∃ m, u.method ref = .ok m ∧ m.flags.visibility.isVisibleOutside = true) ∧
    u.TypeVisible ref.type

theorem isVisibleWithin_succ {id : TypeId} {t : TypeNode} (ht : u.type? id = some t)
    (hv : t.flags.visibility.isVisibleOutside = true) (steps : Nat) :
    u.isVisibleWithin (steps + 1) id =
      t.declaringType.elim (.ok true) (u.isVisibleWithin steps) := by
  simp only [isVisibleWithin, type_eq_ok.mpr ht, bind, Except.bind, hv]
  cases t.declaringType <;> rfl

theorem isVisibleWithin_of_typeVisible {id : TypeId} (h : u.TypeVisible id) (steps : Nat) :
    u.isVisibleWithin steps id = .ok true := by
  induction steps generalizing id with
  | zero => rfl
  | succ steps ih =>
      obtain ⟨t, ht, hv⟩ := h id .refl
      rw [isVisibleWithin_succ ht hv]
      cases hd : t.declaringType with
      | none => rfl
      | some outer => exact ih fun id' hid' => h id' (.head ⟨t, ht, hd⟩ hid')

/-- A type that a search finds visible is there and visible itself. -/
theorem visible_of_isVisibleWithin {steps : Nat} {id : TypeId}
    (h : u.isVisibleWithin (steps + 1) id = .ok true) :
    ∃ t, u.type? id = some t ∧ t.flags.visibility.isVisibleOutside = true := by
  unfold isVisibleWithin at h
  rcases ht : u.type id with e | t
  · rw [ht] at h
    cases h
  · refine ⟨t, type_eq_ok.mp ht, ?_⟩
    cases hv : t.flags.visibility.isVisibleOutside with
    | true => rfl
    | false =>
        simp only [ht, bind, Except.bind, hv] at h
        cases h

/-- The search keeps to types that it has not seen. If it may make more steps than there are types,
    it has come to the end when it stops. -/
theorem typeVisible_of_isVisibleWithin (hu : u.Acyclic) {steps : Nat} {id : TypeId}
    {seen : List TypeId} (hseen : seen.Nodup)
    (hreach : ∀ x ∈ seen, Relation.TransGen u.DeclaredIn x id)
    (hsteps : u.typeCount < steps + seen.length) (h : u.isVisibleWithin steps id = .ok true) :
    u.TypeVisible id := by
  induction steps generalizing id seen with
  | zero =>
      have hle : seen.length ≤ u.typeCount := by
        apply length_le_typeCount hseen
        intro x hx
        obtain ⟨outer, ⟨t, ht, -⟩, -⟩ := Relation.TransGen.head'_iff.mp (hreach x hx)
        exact ⟨t, ht⟩
      omega
  | succ steps ih =>
      obtain ⟨t, ht, hv⟩ := visible_of_isVisibleWithin h
      rw [isVisibleWithin_succ ht hv] at h
      intro outer houter
      rcases houter.cases_head with rfl | ⟨next, hnext, hrest⟩
      · exact ⟨t, ht, hv⟩
      · obtain ⟨t', ht', hd⟩ := hnext
        obtain rfl : t = t' := Option.some.inj (ht.symm.trans ht')
        rw [hd] at h
        have hnew : id ∉ seen := fun hid => hu id (hreach id hid)
        refine ih (List.nodup_cons.mpr ⟨hnew, hseen⟩) (fun x hx => ?_) ?_ h outer hrest
        · rcases List.mem_cons.mp hx with rfl | hx
          · exact .single ⟨t, ht, hd⟩
          · exact (hreach x hx).tail ⟨t, ht, hd⟩
        · rw [List.length_cons]
          omega

theorem isExternallyVisible_eq_ok_true_iff (hu : u.Acyclic) {ref : MemberRef} :
    u.isExternallyVisible ref = .ok true ↔ u.MethodVisible ref := by
  unfold isExternallyVisible MethodVisible
  rcases hm : u.method ref with e | m
  · simp [bind, Except.bind]
  · have hsearch : u.isVisibleWithin (u.typeCount + 1) ref.type = .ok true ↔
        u.TypeVisible ref.type :=
      ⟨typeVisible_of_isVisibleWithin hu List.nodup_nil (by simp) (by simp),
        fun h => isVisibleWithin_of_typeVisible h _⟩
    cases hv : m.flags.visibility.isVisibleOutside with
    | true => simp [bind, Except.bind, hv, hsearch]
    | false => simp [bind, Except.bind, hv, pure, Except.pure]

end MiddleEnd.Universe
