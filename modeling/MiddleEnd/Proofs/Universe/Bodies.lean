/-
  Universes that differ only in bodies. `SameBut refs` says so of two universes and the methods that
  may have another body; what cannot be told from the bodies, such as whether there is one, is the
  same for all. The methods that a unit lists are methods, unless one of its types is missing
  (`unitMethods_cases`).
-/
import MiddleEnd.Proofs.Pass.Run
import MiddleEnd.Proofs.Universe.Outline

namespace MiddleEnd

theorem Arena.modify_congr {ι α : Type} [Index ι] {a : Arena ι α} {i : ι} {f g : α → α}
    (h : ∀ x, a.get? i = some x → f x = g x) : a.modify i f = a.modify i g := by
  refine ext_getElem? fun k => ?_
  simp only [modify, Array.getElem?_modify]
  split
  · rename_i hk
    subst hk
    refine Option.map_congr fun x hx => ?_
    exact h x hx
  · rfl

namespace Universe

/-! ## Bodies -/

/-- With this body in the place of the one that the method had. -/
def setBody (u : Universe) (ref : MemberRef) (body : Body) : Universe :=
  u.modifyMethod ref fun m => { m with body := some body }

/-- Without the bodies of these methods. -/
def withoutBodies (u : Universe) (refs : List MemberRef) : Universe := refs.foldl bodiless u

def HasBody (u : Universe) (ref : MemberRef) : Prop :=
  ∃ m, u.method ref = .ok m ∧ m.body.isSome = true

/-- The universes differ at most in the bodies of these methods, and the same methods have one. -/
structure SameBut (refs : List MemberRef) (u u' : Universe) : Prop where
  withoutBodies_eq : u'.withoutBodies refs = u.withoutBodies refs
  hasBody_iff : ∀ ref, u'.HasBody ref ↔ u.HasBody ref

section

variable {u : Universe} {ref : MemberRef} {m : Method}

/-- What a change does to a method is all that counts. -/
theorem modifyMethod_congr (hm : u.method ref = .ok m) {f g : Method → Method} (h : f m = g m) :
    u.modifyMethod ref f = u.modifyMethod ref g := by
  obtain ⟨member, hmember, hmethod⟩ := method_eq_ok.mp hm
  obtain ⟨node, hnode, hat⟩ := member_eq_ok.mp hmember
  obtain ⟨module, hmodule, hnode⟩ := Option.bind_eq_some_iff.mp hnode
  have hkind : member.modifyMethod f = member.modifyMethod g := by
    obtain ⟨name, declaringType, attributes, kind, source⟩ := member
    cases kind with
    | method method =>
        obtain rfl : method = m := Option.some.inj hmethod
        simp only [Member.modifyMethod, h]
    | _ => rfl
  have hmembers : node.members.modify ref.index (Member.modifyMethod f) =
      node.members.modify ref.index (Member.modifyMethod g) := by
    refine List.ext_getElem? fun i => ?_
    rw [List.getElem?_modify, List.getElem?_modify]
    split
    · rename_i hi
      subst hi
      rw [hat]
      exact congrArg some hkind
    · rfl
  refine congrArg Universe.mk (Arena.modify_congr fun module' hmodule' => ?_)
  obtain rfl : module = module' := Option.some.inj (hmodule.symm.trans hmodule')
  unfold Module.modifyType
  unfold Module.type? at hnode
  split
  · rename_i hid
    rw [if_pos hid] at hnode
    have htypes : ∀ node', module.types.get? ref.type.index = some node' →
        { node' with members := node'.members.modify ref.index (Member.modifyMethod f) } =
          { node' with members := node'.members.modify ref.index (Member.modifyMethod g) } := by
      intro node' hnode'
      obtain rfl : node = node' := Option.some.inj (hnode.symm.trans hnode')
      rw [hmembers]
    rw [Arena.modify_congr htypes]
  · rfl

theorem bodiless_of_body_eq_none (hm : u.method ref = .ok m) (hb : m.body = none) :
    u.bodiless ref = u := by
  have hself : { m with body := none } = m := by rw [← hb]
  rw [bodiless, modifyMethod_congr hm (g := fun m => m) hself, modifyMethod_self]

theorem method_setBody (hm : u.method ref = .ok m) (body : Body) :
    (u.setBody ref body).method ref = .ok { m with body := some body } :=
  method_modifyMethod.mpr ⟨m, hm, by rw [if_pos rfl]⟩

theorem method_modifyMethod_of_ne (u : Universe) {ref ref' : MemberRef} (h : ref' ≠ ref)
    (f : Method → Method) : (u.modifyMethod ref f).method ref' = u.method ref' := by
  obtain ⟨type, index⟩ := ref
  obtain ⟨type', index'⟩ := ref'
  have hmember : (u.modifyMethod ⟨type, index⟩ f).member ⟨type', index'⟩ =
      u.member ⟨type', index'⟩ := by
    simp only [member, Universe.type, modifyMethod, modifyMember, type?_modifyType]
    by_cases ht : type' = type
    · have hi : index ≠ index' := fun hi => h (by rw [ht, hi])
      rw [if_pos ht]
      rcases u.type? type' with _ | node
      · rfl
      · simp [bind, Except.bind, hi]
    · rw [if_neg ht]
  unfold method
  rw [hmember]

end

namespace SameBut

variable {refs refs' : List MemberRef} {u u₁ u₂ : Universe}

theorem refl (refs : List MemberRef) (u : Universe) : SameBut refs u u := ⟨rfl, fun _ => Iff.rfl⟩

theorem trans (h₁ : SameBut refs u u₁) (h₂ : SameBut refs u₁ u₂) : SameBut refs u u₂ :=
  ⟨h₂.withoutBodies_eq.trans h₁.withoutBodies_eq,
    fun ref => (h₂.hasBody_iff ref).trans (h₁.hasBody_iff ref)⟩

end SameBut

/-- A body that will be taken away may be changed before. -/
theorem withoutBodies_modifyMethod {refs : List MemberRef} {ref : MemberRef} (hr : ref ∈ refs)
    (body : Option Body) (u : Universe) :
    (u.modifyMethod ref fun m => { m with body }).withoutBodies refs = u.withoutBodies refs := by
  induction refs generalizing u with
  | nil => cases hr
  | cons first refs ih =>
      show ((u.modifyMethod ref _).bodiless first).withoutBodies refs =
        (u.bodiless first).withoutBodies refs
      by_cases h : ref = first
      · subst h
        exact congrArg (withoutBodies · refs) (modifyMethod_modifyMethod u ref _ _)
      · have hrest : ref ∈ refs := (List.mem_cons.mp hr).resolve_left h
        rw [bodiless, modifyMethod_comm u h]
        exact ih hrest _

theorem withoutBodies_withoutBodies {refs refs' : List MemberRef} (h : refs ⊆ refs')
    (u : Universe) : (u.withoutBodies refs).withoutBodies refs' = u.withoutBodies refs' := by
  induction refs generalizing u with
  | nil => rfl
  | cons first refs ih =>
      obtain ⟨hfirst, hrest⟩ := List.cons_subset.mp h
      show ((u.bodiless first).withoutBodies refs).withoutBodies refs' = u.withoutBodies refs'
      rw [ih hrest, bodiless, withoutBodies_modifyMethod hfirst]

theorem layout_withoutBodies (u : Universe) (refs : List MemberRef) :
    (u.withoutBodies refs).layout = u.layout := by
  induction refs generalizing u with
  | nil => rfl
  | cons first refs ih => exact (ih (u.bodiless first)).trans layout_bodiless

theorem method_withoutBodies {refs : List MemberRef} {ref : MemberRef} (hr : ref ∉ refs)
    (u : Universe) : (u.withoutBodies refs).method ref = u.method ref := by
  induction refs generalizing u with
  | nil => rfl
  | cons first refs ih =>
      obtain ⟨hne, hrest⟩ := not_or.mp (mt List.mem_cons.mpr hr)
      show ((u.bodiless first).withoutBodies refs).method ref = u.method ref
      rw [ih hrest, bodiless, method_modifyMethod_of_ne u hne]

namespace SameBut

variable {refs refs' : List MemberRef} {u u' : Universe} {ref : MemberRef}

/-- Methods outside the list are the same. -/
theorem method_eq (h : SameBut refs u u') (hr : ref ∉ refs) : u'.method ref = u.method ref := by
  rw [← method_withoutBodies hr u', h.withoutBodies_eq, method_withoutBodies hr]

theorem isMethod (h : SameBut refs u u') (hr : u.IsMethod ref) : u'.IsMethod ref := by
  have hlayout : u.layout = u'.layout := by
    rw [← layout_withoutBodies u refs, ← h.withoutBodies_eq, layout_withoutBodies]
  exact isMethod_of_layout hlayout hr

theorem mono (h : SameBut refs u u') (hr : refs ⊆ refs') : SameBut refs' u u' := by
  refine ⟨?_, h.hasBody_iff⟩
  rw [← withoutBodies_withoutBodies hr u', h.withoutBodies_eq, withoutBodies_withoutBodies hr]

theorem setBody {m : Method} (hm : u.method ref = .ok m) (hb : m.body.isSome = true)
    (hr : ref ∈ refs) (body : Body) : SameBut refs u (u.setBody ref body) := by
  refine ⟨withoutBodies_modifyMethod hr (some body) u, fun ref' => ?_⟩
  unfold HasBody
  by_cases h : ref' = ref
  · subst h
    rw [method_setBody hm, hm]
    simp [hb]
  · rw [Universe.setBody, method_modifyMethod_of_ne u h]

end SameBut

/-! ## The methods of a unit -/

/-- The methods of a unit are methods, unless one of its types is missing. -/
theorem unitMethods_cases (u : Universe) (unit : CompilationUnit) :
    (∃ refs, u.unitMethods unit = .ok refs ∧ ∀ ref ∈ refs, u.IsMethod ref) ∨
      ∃ missing, u.unitMethods unit = .error (.danglingType missing) := by
  rcases h : u.unitMethods unit with e | refs
  · obtain ⟨missing, rfl, -⟩ := missing_of_unitMethods h
    exact .inr ⟨missing, rfl⟩
  · exact .inl ⟨refs, rfl, fun _ => isMethod_of_unitMethods h⟩

end Universe

end MiddleEnd
