/-
  Nested types and their sources. A nested type stands in a member, and of the two only the member
  is given a source when a text is read (`CompileUnit.nestedTypes_of_read`): the declaration is read
  from the same fields as the member, without the one for the source.
-/
import MiddleEnd.CodeTree.Reader
import MiddleEnd.Proofs.Json.Decoding

namespace MiddleEnd.CodeTree

/-! ## Nested types -/

mutual

/-- The types declared inside a type, at any depth. -/
def TypeDeclaration.nestedTypes : TypeDeclaration → List TypeDeclaration
  | ⟨_, _, _, _, members, _, _⟩ => membersNestedTypes members

def membersNestedTypes : List Member → List TypeDeclaration
  | [] => []
  | m :: ms => m.nestedTypes ++ membersNestedTypes ms

def Member.nestedTypes : Member → List TypeDeclaration
  | ⟨form, _⟩ => form.nestedTypes

def MemberForm.nestedTypes : MemberForm → List TypeDeclaration
  | .nestedType d => d :: d.nestedTypes
  | _ => []

end

def CompileUnit.nestedTypes (u : CompileUnit) : List TypeDeclaration :=
  u.namespaces.flatMap fun n => n.types.flatMap TypeDeclaration.nestedTypes

/-- None of the types has a source of its own. -/
def SourceFree (types : List TypeDeclaration) : Prop := ∀ d ∈ types, d.source = none

instance (types : List TypeDeclaration) : Decidable (SourceFree types) :=
  inferInstanceAs (Decidable (∀ d ∈ types, d.source = none))

theorem sourceFree_nil : SourceFree [] := nofun

theorem sourceFree_append {as bs : List TypeDeclaration} :
    SourceFree (as ++ bs) ↔ SourceFree as ∧ SourceFree bs := List.forall_mem_append

theorem sourceFree_cons {d : TypeDeclaration} {ds : List TypeDeclaration} :
    SourceFree (d :: ds) ↔ d.source = none ∧ SourceFree ds := List.forall_mem_cons

theorem sourceFree_flatMap {α : Type} {nested : α → List TypeDeclaration} {as : List α} :
    SourceFree (as.flatMap nested) ↔ ∀ a ∈ as, SourceFree (nested a) := by
  simp only [SourceFree, List.mem_flatMap]
  exact ⟨fun h a ha d hd => h d ⟨a, ha, hd⟩, fun h d ⟨a, ha, hd⟩ => h a ha d hd⟩

theorem TypeDeclaration.nestedTypes_eq (d : TypeDeclaration) :
    d.nestedTypes = membersNestedTypes d.members := by
  cases d
  rfl

theorem membersNestedTypes_eq_flatMap (ms : List Member) :
    membersNestedTypes ms = ms.flatMap Member.nestedTypes := by
  induction ms with
  | nil => rfl
  | cons m ms ih => rw [membersNestedTypes, ih, List.flatMap_cons]

namespace Reader

open Decode

/-- A field of a type leaves its source alone, and its nested types are those read with it. -/
theorem typeStep_preserves {depth : Nat} {members : Draft → Decoded (List Member)}
    (hmembers : ∀ d ms, members d = .ok ms → SourceFree (membersNestedTypes ms))
    (t : TypeDeclaration) (key : String) (d : Draft) (t' : TypeDeclaration)
    (ht : SourceFree (membersNestedTypes t.members))
    (h : typeStep depth members t key d = .ok t') :
    SourceFree (membersNestedTypes t'.members) ∧ t'.source = t.source := by
  unfold typeStep at h
  split at h
  case h_5 =>
    obtain ⟨ms, hms, h⟩ := bind_eq_ok h
    obtain rfl := Except.ok.inj h
    exact ⟨hmembers d ms hms, rfl⟩
  case h_7 =>
    obtain rfl := Except.ok.inj h
    exact ⟨ht, rfl⟩
  all_goals
    obtain ⟨_, _, h⟩ := bind_eq_ok h
    obtain rfl := Except.ok.inj h
    exact ⟨ht, rfl⟩

theorem memberForm_sourceFree {depth : Nat} {members : Draft → Decoded (List Member)}
    (hmembers : ∀ d ms, members d = .ok ms → SourceFree (membersNestedTypes ms))
    {kind : String} {fs : Fields} {form : MemberForm}
    (h : memberForm depth members kind fs = .ok form) : SourceFree form.nestedTypes := by
  unfold memberForm at h
  split at h
  case h_7 =>
    obtain ⟨_, _, h⟩ := bind_eq_ok h
    obtain ⟨_, _, h⟩ := bind_eq_ok h
    obtain rfl := Except.ok.inj h
    exact sourceFree_nil
  case h_8 =>
    obtain ⟨t, ht, rfl⟩ := map_eq_ok h
    have hpreserved : SourceFree (membersNestedTypes t.members) ∧ t.source = none := by
      refine gather_preserves (a := emptyType)
        (P := fun t : TypeDeclaration =>
          SourceFree (membersNestedTypes t.members) ∧ t.source = none)
        (fun t key d t' hP h => ?_) ⟨sourceFree_nil, rfl⟩ ht
      obtain ⟨hnested, hsource⟩ := typeStep_preserves hmembers t key d t' hP.1 h
      exact ⟨hnested, hsource.trans hP.2⟩
    exact sourceFree_cons.2 ⟨hpreserved.2, t.nestedTypes_eq ▸ hpreserved.1⟩
  case h_9 => cases h
  all_goals
    obtain ⟨_, _, rfl⟩ := map_eq_ok h
    exact sourceFree_nil

theorem openNode_eq_ok {α : Type} {depth : Nat} {known : String → Fields → Decoded α}
    {other : String → α} {d : Draft} {form : α} {source : Option SourceContext}
    (h : openNode depth known other d = .ok (form, source)) :
    ∃ kind, (∃ fs, known kind fs = .ok form) ∨ form = other kind := by
  cases d with
  | object fs stop =>
      obtain ⟨source', _, h⟩ := bind_eq_ok h
      obtain ⟨_, _, h⟩ := bind_eq_ok h
      split at h
      case h_1 kind _ =>
        refine ⟨kind, ?_⟩
        split at h
        case h_1 form' hform =>
          obtain ⟨rfl, -⟩ := Prod.mk.inj (Except.ok.inj h)
          exact .inl ⟨fs, hform⟩
        case h_2 =>
          obtain ⟨rfl, -⟩ := Prod.mk.inj (Except.ok.inj h)
          exact .inr rfl
      case h_2 => cases h
  | _ => cases h

theorem members_sourceFree (depth : Nat) : ∀ d ms, members depth d = .ok ms →
    SourceFree (membersNestedTypes ms) := by
  -- two levels of depth at a time: the array, and the members in it
  induction depth using Nat.strongRecOn with
  | _ depth ih =>
      intro d ms h
      rw [membersNestedTypes_eq_flatMap, sourceFree_flatMap]
      cases depth with
      | zero => cases d <;> cases h
      | succ depth =>
          intro m hm
          obtain ⟨d, hd⟩ := mem_of_items h m hm
          cases depth with
          | zero => cases hd
          | succ depth =>
              obtain ⟨⟨form, source⟩, hnode, hm⟩ := bind_eq_ok hd
              obtain rfl := Except.ok.inj hm
              obtain ⟨kind, ⟨fs, hform⟩ | rfl⟩ := openNode_eq_ok hnode
              · exact memberForm_sourceFree (ih depth (by omega)) hform
              · exact sourceFree_nil

theorem typeDeclaration_sourceFree {depth : Nat} {d : Draft} {t : TypeDeclaration}
    (h : typeDeclaration depth d = .ok t) : SourceFree t.nestedTypes := by
  cases depth with
  | zero => cases h
  | succ depth =>
      rw [t.nestedTypes_eq]
      refine record_preserves (a := emptyType)
        (P := fun t : TypeDeclaration => SourceFree (membersNestedTypes t.members))
        (fun t key d t' hP h => ?_) sourceFree_nil h
      unfold typeDeclaration.step at h
      split at h
      · obtain ⟨_, _, h⟩ := bind_eq_ok h
        obtain rfl := Except.ok.inj h
        exact hP
      · exact (typeStep_preserves (members_sourceFree depth) t _ d t' hP h).1

theorem namespaceNode_sourceFree {depth : Nat} {d : Draft} {n : Namespace}
    (h : namespaceNode depth d = .ok n) :
    SourceFree (n.types.flatMap TypeDeclaration.nestedTypes) := by
  cases depth with
  | zero => cases h
  | succ depth =>
      refine record_preserves
        (P := fun n => SourceFree (n.types.flatMap TypeDeclaration.nestedTypes))
        (fun n key d n' hP h => ?_) sourceFree_nil h
      unfold namespaceNode.step at h
      split at h
      case h_3 =>
        obtain ⟨ts, hts, h⟩ := bind_eq_ok h
        obtain rfl := Except.ok.inj h
        refine sourceFree_flatMap.2 fun t ht => ?_
        obtain ⟨_, _, ht⟩ := mem_of_list hts t ht
        exact typeDeclaration_sourceFree ht
      case h_5 =>
        obtain rfl := Except.ok.inj h
        exact hP
      all_goals
        obtain ⟨_, _, h⟩ := bind_eq_ok h
        obtain rfl := Except.ok.inj h
        exact hP

theorem compileUnit_sourceFree {depth : Nat} {d : Draft} {u : CompileUnit}
    (h : compileUnit depth d = .ok u) : SourceFree u.nestedTypes := by
  cases depth with
  | zero => cases h
  | succ depth =>
      refine record_preserves (P := fun u => SourceFree u.nestedTypes)
        (fun u key d u' hP h => ?_) sourceFree_nil h
      unfold compileUnit.step at h
      split at h
      case h_1 =>
        obtain ⟨ns, hns, h⟩ := bind_eq_ok h
        obtain rfl := Except.ok.inj h
        refine sourceFree_flatMap.2 fun n hn => ?_
        obtain ⟨_, _, hn⟩ := mem_of_list hns n hn
        exact namespaceNode_sourceFree hn
      case h_6 =>
        obtain rfl := Except.ok.inj h
        exact hP
      all_goals
        obtain ⟨_, _, h⟩ := bind_eq_ok h
        obtain rfl := Except.ok.inj h
        exact hP

end Reader

/-- A nested type that was read has no source of its own. -/
theorem CompileUnit.nestedTypes_of_read {t : String} {u : CompileUnit} (h : read t = .ok u) :
    SourceFree u.nestedTypes := by
  unfold CompileUnit.read Decode.text at h
  split at h
  · obtain ⟨_, _, h⟩ := bind_eq_ok h
    cases h
  · obtain ⟨u', hu, h⟩ := bind_eq_ok h
    split at h
    · obtain rfl := Except.ok.inj h
      exact Reader.compileUnit_sourceFree hu
    · cases h

end MiddleEnd.CodeTree
