/-
  Sets of preconditions. A set keeps the first fact of each text, in the order of insertion
  (`ofList_items`). So it tells facts apart as well as their texts do. For facts about access paths
  this is up to static types and sources, and none of them is lost (`ofList_tells_apart`); other
  facts can hide each other, as an element of an address and the address of an element do
  (`elementOfAddress_lost`).
-/
import MiddleEnd.Pass.Precondition
import MiddleEnd.Proofs.Code.Paths

namespace MiddleEnd

/-! ## Erased duplicates -/

section

variable {α : Type} {r r' : α → α → Bool}

/-- What stands behind the first item is gone through without its duplicates. -/
theorem eraseDupsBy_induction {motive : List α → Prop} (r : α → α → Bool) (nil : motive [])
    (cons : ∀ a as, motive (as.filter fun b => decide (r b a = false)) → motive (a :: as))
    (l : List α) : motive l := by
  induction h : l.length using Nat.strongRecOn generalizing l with
  | ind n ih =>
      cases l with
      | nil => exact nil
      | cons a as =>
          have hfilter := List.length_filter_le (fun b => decide (r b a = false)) as
          rw [List.length_cons] at h
          exact cons a as (ih _ (by omega) _ rfl)

theorem eraseDupsBy_sublist (r : α → α → Bool) (l : List α) : (l.eraseDupsBy r).Sublist l := by
  induction l using eraseDupsBy_induction r with
  | nil => exact List.Sublist.refl _
  | cons a as ih =>
      rw [List.eraseDupsBy_cons]
      exact List.Sublist.cons_cons a (ih.trans List.filter_sublist)

theorem eraseDupsBy_congr {l : List α} (h : ∀ a ∈ l, ∀ b ∈ l, r a b = r' a b) :
    l.eraseDupsBy r = l.eraseDupsBy r' := by
  induction l using eraseDupsBy_induction r with
  | nil => rfl
  | cons a as ih =>
      have hfilter : (as.filter fun b => decide (r b a = false)) =
          as.filter fun b => decide (r' b a = false) := by
        refine List.filter_congr fun b hb => ?_
        rw [h b (List.mem_cons_of_mem _ hb) a (List.mem_cons_self ..)]
      have hrest := ih fun b hb c hc =>
        h b (List.mem_cons_of_mem _ (List.mem_filter.mp hb).1) c
          (List.mem_cons_of_mem _ (List.mem_filter.mp hc).1)
      rw [List.eraseDupsBy_cons, List.eraseDupsBy_cons, hrest, hfilter]

end

/-! ## Sets -/

def Precondition.sameText (p q : Precondition) : Bool := p.text == q.text

theorem Precondition.sameText_comm (p q : Precondition) : p.sameText q = q.sameText p :=
  BEq.comm

namespace PreconditionSet

open Precondition (sameText sameText_comm)

theorem contains_iff {s : PreconditionSet} {p : Precondition} :
    s.contains p = true ↔ ∃ q ∈ s.items, q.text = p.text := by
  simp [contains]

/-- A fact is refused if the set contains its text. -/
theorem insert_eq_self_iff {s : PreconditionSet} {p : Precondition} :
    s.insert p = s ↔ s.contains p = true := by
  constructor
  · intro h
    by_cases hp : s.contains p = true
    · exact hp
    · rw [insert, if_neg hp] at h
      have hlength := congrArg (fun s => s.items.length) h
      simp at hlength
  · intro h
    rw [insert, if_pos h]

theorem contains_insert (s : PreconditionSet) (p q : Precondition) :
    (s.insert p).contains q = (s.contains q || sameText p q) := by
  cases h : s.contains p with
  | false =>
      rw [insert, h, if_neg Bool.false_ne_true]
      simp [contains, sameText]
  | true =>
      rw [insert, if_pos h]
      cases hpq : sameText p q with
      | false => rw [Bool.or_false]
      | true =>
          -- What stands for the one fact in the set stands for the other too.
          obtain ⟨first, hfirst, hp⟩ := contains_iff.mp h
          have hq : s.contains q = true :=
            contains_iff.mpr ⟨first, hfirst, hp.trans (LawfulBEq.eq_of_beq hpq)⟩
          rw [hq, Bool.or_true]

theorem foldl_insert_items (s : PreconditionSet) (ps : List Precondition) :
    (ps.foldl insert s).items =
      s.items ++ (ps.filter fun p => !s.contains p).eraseDupsBy sameText := by
  induction ps generalizing s with
  | nil => exact (List.append_nil s.items).symm
  | cons p ps ih =>
      rw [List.foldl_cons, ih]
      cases h : s.contains p with
      | true => simp [insert, h]
      | false =>
          have hrest : (ps.filter fun q => !(s.insert p).contains q) =
              (ps.filter fun q => !s.contains q).filter fun q => decide (sameText q p = false) := by
            rw [List.filter_filter]
            refine List.filter_congr fun q _ => ?_
            rw [contains_insert, sameText_comm p q]
            cases s.contains q <;> cases sameText q p <;> rfl
          rw [List.filter_cons_of_pos (by rw [h]; rfl), List.eraseDupsBy_cons, hrest, insert, h,
            if_neg Bool.false_ne_true, List.append_assoc]
          rfl

theorem ofList_items (ps : List Precondition) : (ofList ps).items = ps.eraseDupsBy sameText := by
  have hall : (ps.filter fun p => !contains {} p) = ps := List.filter_eq_self.mpr fun _ _ => rfl
  rw [ofList, foldl_insert_items, hall]
  rfl

theorem contains_foldl_insert (s : PreconditionSet) (ps : List Precondition) (q : Precondition) :
    (ps.foldl insert s).contains q = (s.contains q || ps.any fun p => sameText p q) := by
  induction ps generalizing s with
  | nil => exact (Bool.or_false _).symm
  | cons p ps ih => rw [List.foldl_cons, ih, contains_insert, List.any_cons, Bool.or_assoc]

theorem contains_ofList_iff {ps : List Precondition} {q : Precondition} :
    (ofList ps).contains q = true ↔ ∃ p ∈ ps, p.text = q.text := by
  rw [ofList, contains_foldl_insert]
  simp [contains, sameText]

end PreconditionSet

/-! ## Facts about access paths -/

namespace Precondition

def bare : Precondition → Precondition
  | .nonNull value => .nonNull value.bare

def IsPath : Precondition → Prop
  | .nonNull value => value.IsPath

instance (p : Precondition) : Decidable p.IsPath :=
  match p with
  | .nonNull value => inferInstanceAs (Decidable value.IsPath)

/-- Whether two facts are equal up to static types and sources. -/
noncomputable def sameFact (p q : Precondition) : Bool :=
  @decide (p.bare = q.bare) (Classical.propDecidable _)

theorem text_eq_iff_bare_eq {p q : Precondition} (hp : p.IsPath) (hq : q.IsPath) :
    p.text = q.text ↔ p.bare = q.bare := by
  cases p with
  | nonNull e =>
      cases q with
      | nonNull f =>
          have hbare : (nonNull e).bare = (nonNull f).bare ↔ e.bare = f.bare := by simp [bare]
          have htext : (nonNull e).text = (nonNull f).text ↔ e.text = f.text :=
            String.append_left_inj " != null"
          rw [hbare, htext]
          exact Expr.text_eq_iff_bare_eq hp hq

theorem sameText_eq_sameFact {p q : Precondition} (hp : p.IsPath) (hq : q.IsPath) :
    p.sameText q = p.sameFact q := by
  have hfact : p.sameFact q = true ↔ p.bare = q.bare := by simp [sameFact]
  rw [Bool.eq_iff_iff, sameText, beq_iff_eq, hfact]
  exact text_eq_iff_bare_eq hp hq

end Precondition

namespace PreconditionSet

open Precondition (sameText)

/-- A fact is refused exactly if one of its text was inserted before, and of each text the first
    fact is listed, in the order of insertion. If the facts are about access paths, then a fact is
    refused exactly if the set holds one that is equal up to static types and sources, and all of
    them are listed, once each up to that equality. -/
theorem ofList_tells_apart (ps : List Precondition) :
    (∀ p, (ofList ps).insert p = ofList ps ↔ ∃ q ∈ ps, q.text = p.text) ∧
    (ofList ps).items = ps.eraseDupsBy sameText ∧
    ((∀ p ∈ ps, p.IsPath) →
      (∀ p, p.IsPath → ((ofList ps).insert p = ofList ps ↔
        ∃ q ∈ (ofList ps).items, q.bare = p.bare)) ∧
      (ofList ps).items = ps.eraseDupsBy Precondition.sameFact) := by
  refine ⟨fun p => insert_eq_self_iff.trans contains_ofList_iff, ofList_items ps, fun hps =>
    ⟨fun p hp => ?_, ?_⟩⟩
  · have hitems : ∀ q ∈ (ofList ps).items, q.IsPath := by
      intro q hq
      rw [ofList_items] at hq
      exact hps q ((eraseDupsBy_sublist _ _).mem hq)
    rw [insert_eq_self_iff, contains_iff]
    constructor
    · rintro ⟨q, hq, htext⟩
      exact ⟨q, hq, (Precondition.text_eq_iff_bare_eq (hitems q hq) hp).mp htext⟩
    · rintro ⟨q, hq, hbare⟩
      exact ⟨q, hq, (Precondition.text_eq_iff_bare_eq (hitems q hq) hp).mpr hbare⟩
  · rw [ofList_items]
    exact eraseDupsBy_congr fun p hp q hq =>
      Precondition.sameText_eq_sameFact (hps p hp) (hps q hq)

end PreconditionSet

namespace Basket

def items : Expr := .identifier "items"

/-- `items[0]` -/
def element : Expr := (ExprForm.indexer items [.literal (.int32 0)]).expr

/-- `items[0]` with its static type. -/
def typedElement : Expr := { element with type := some (.primitive .string) }

/-- `&items[0]`, the address of the element -/
def addressOfElement : Expr := (ExprForm.addressOf element).expr

/-- `&items[0]`, the element of the address -/
def elementOfAddress : Expr :=
  (ExprForm.indexer (ExprForm.addressOf items).expr [.literal (.int32 0)]).expr

/-- `this.<0:1#0>("x", ((int32) items))` -/
def callOfMember : Expr :=
  (ExprForm.call (ExprForm.member (some ExprForm.thisRef.expr) ⟨⟨⟨0⟩, ⟨1⟩⟩, 0⟩).expr
    [.literal (.string "x"), (ExprForm.cast items .int32).expr]).expr

def facts : List Precondition :=
  [.nonNull element, .nonNull addressOfElement, .nonNull typedElement, .nonNull callOfMember]

end Basket

namespace PreconditionSet

open Basket

/-- Only the element with a static type is told already. -/
theorem ofList_tells_apart_basket :
    (∀ p ∈ facts, p.IsPath) ∧ Precondition.bare (.nonNull element) = .bare (.nonNull typedElement) ∧
    facts.eraseDupsBy Precondition.sameFact =
      [.nonNull element, .nonNull addressOfElement, .nonNull callOfMember] ∧
    ∃ q ∈ (ofList facts).items, q.bare = Precondition.bare (.nonNull typedElement) := by
  have hpaths : ∀ p ∈ facts, p.IsPath := by decide +kernel
  obtain ⟨-, -, hfacts⟩ := ofList_tells_apart facts
  obtain ⟨hrefused, hitems⟩ := hfacts hpaths
  refine ⟨hpaths, rfl, ?_, ?_⟩
  · rw [← hitems]
    rfl
  · exact (hrefused (.nonNull typedElement) (by decide +kernel)).mp rfl

/-- The element of the address has the text of the address of the element, so it is lost. -/
theorem elementOfAddress_lost :
    Precondition.bare (.nonNull elementOfAddress) ≠ .bare (.nonNull addressOfElement) ∧
    (ofList [.nonNull addressOfElement]).insert (.nonNull elementOfAddress) =
      ofList [.nonNull addressOfElement] ∧
    (ofList [.nonNull addressOfElement, .nonNull elementOfAddress]).items =
      [.nonNull addressOfElement] := by
  refine ⟨?_, rfl, rfl⟩
  intro h
  cases h

end PreconditionSet

end MiddleEnd
