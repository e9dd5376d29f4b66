/-
  Decoding of written values. A decoder reads a value as `a` if it gives `a` wherever the containers
  of the value fit into the depth that is left, and where they do not, says that the text is
  malformed (`Reads`). Records, lists and optional values are read as soon as their parts are.
-/
import MiddleEnd.Json.Decode
import MiddleEnd.Proofs.Except
import MiddleEnd.Proofs.Json.Scanning

namespace MiddleEnd

namespace Json

mutual

/-- How deep arrays and objects are nested in a value. -/
def height : Json → Nat
  | .null | .bool _ | .number _ | .string _ => 0
  | .array items => itemsHeight items + 1
  | .object fields => fieldsHeight fields + 1

def itemsHeight : List Json → Nat
  | [] => 0
  | item :: items => max item.height (itemsHeight items)

def fieldsHeight : List (String × Json) → Nat
  | [] => 0
  | (_, value) :: fields => max value.height (fieldsHeight fields)

end

theorem fieldsHeight_append (fs gs : List (String × Json)) :
    fieldsHeight (fs ++ gs) = max (fieldsHeight fs) (fieldsHeight gs) := by
  induction fs with
  | nil => simp [fieldsHeight]
  | cons f fs ih => rw [List.cons_append, fieldsHeight, ih, fieldsHeight, Nat.max_assoc]

theorem lookup_fieldDrafts (fs : List (String × Json)) (key : String) :
    (fieldDrafts fs).lookup (some key) = (fs.lookup key).map draft := by
  induction fs with
  | nil => rfl
  | cons f fs ih =>
      obtain ⟨k, j⟩ := f
      rw [fieldDrafts, List.lookup_cons, List.lookup_cons, ih]
      have hkey : (some key == some k) = (key == k) := rfl
      rw [hkey]
      cases key == k <;> rfl

theorem stop?_draft (j : Json) : j.draft.stop? = none := by
  cases j <;> rfl

end Json

namespace Decode

variable {α β : Type}

/-- A value that takes `height` levels, where `depth` are left. -/
def within (height depth : Nat) (a : α) : Decoded α :=
  if height ≤ depth then .ok a else .error .malformed

theorem within_of_le {height depth : Nat} (h : height ≤ depth) (a : α) :
    within height depth a = .ok a := if_pos h

theorem map_eq_ok {x : Decoded α} {f : α → β} {b : β} (h : f <$> x = .ok b) :
    ∃ a, x = .ok a ∧ f a = b := by
  cases x with
  | error e => cases h
  | ok a => exact ⟨a, rfl, Except.ok.inj h⟩

theorem bind_ok {x : Decoded α} {a : α} {f : α → Decoded β} {r : Decoded β} (h : x = .ok a)
    (hr : f a = r) : x >>= f = r := by
  rw [h]
  exact hr

theorem map_ok {x : Decoded α} {a : α} (h : x = .ok a) (f : α → β) : f <$> x = .ok (f a) := by
  rw [h]
  rfl

theorem within_zero (depth : Nat) (a : α) : within 0 depth a = .ok a :=
  within_of_le (Nat.zero_le _) a

theorem within_bind {n m depth : Nat} {a : α} {b : β} {f : α → Decoded β}
    (h : f a = within m depth b) : within n depth a >>= f = within (max n m) depth b := by
  unfold within at *
  by_cases hn : n ≤ depth
  · have hmax : max n m ≤ depth ↔ m ≤ depth := by omega
    simp only [if_pos hn, hmax]
    exact h
  · have hmax : ¬ max n m ≤ depth := by omega
    rw [if_neg hn, if_neg hmax]
    rfl

theorem within_then {n depth : Nat} {a : α} {b : β} {f : α → Decoded β} (h : f a = .ok b) :
    within n depth a >>= f = within n depth b := by
  have hzero : f a = within 0 depth b := h.trans (within_zero depth b).symm
  have hbind := within_bind (n := n) hzero
  rwa [Nat.max_zero] at hbind

theorem within_succ (height depth : Nat) (a : α) :
    within (height + 1) (depth + 1) a = within height depth a := by
  simp [within]

theorem within_succ_zero (height : Nat) (a : α) : within (height + 1) 0 a = .error .malformed :=
  if_neg (Nat.not_succ_le_zero height)

/-- The decoder takes the value for `a`, if its containers fit into the depth that is left. -/
def Reads (decode : Nat → Draft → Decoded α) (j : Json) (a : α) : Prop :=
  ∀ depth, decode depth j.draft = within j.height depth a

namespace Reads

variable {decode : Nat → Draft → Decoded α} {j : Json} {a : α}

theorem ok (h : Reads decode j a) {depth : Nat} (hd : j.height ≤ depth) :
    decode depth j.draft = .ok a := (h depth).trans (within_of_le hd a)

theorem map (h : Reads decode j a) (f : α → β) :
    Reads (fun depth d => do return f (← decode depth d)) j (f a) := by
  intro depth
  show (decode depth j.draft >>= fun x => pure (f x)) = _
  rw [h depth]
  exact within_then rfl

end Reads

/-! ## Scalars -/

theorem reads_string (s : String) : Reads (fun _ => string) (.string s) s :=
  fun depth => (within_zero depth s).symm

theorem reads_bool (b : Bool) : Reads (fun _ => bool) (.bool b) b :=
  fun depth => (within_zero depth b).symm

/-- A whole number between bounds, taken for a number of another type. -/
theorem reads_int {least greatest i : Int} {of : Int → α} {a : α} (hl : least ≤ i)
    (hg : i ≤ greatest) (h : of i = a) :
    Reads (fun _ d => do return of (← int least greatest d)) (.ofInt i) a := by
  intro depth
  have hint : int least greatest (Json.ofInt i).draft = .ok i := if_pos ⟨hl, hg⟩
  show (int least greatest (Json.ofInt i).draft >>= fun i => pure (of i)) = _
  rw [hint]
  show Except.ok (of i) = _
  rw [h]
  exact (within_zero depth a).symm

theorem reads_uint8 (n : UInt8) : Reads (fun _ => uint8) (.ofNat n.toNat) n :=
  reads_int (by omega) (by have := n.toNat_lt; omega) (by simp)

theorem reads_uint16 (n : UInt16) : Reads (fun _ => uint16) (.ofNat n.toNat) n :=
  reads_int (by omega) (by have := n.toNat_lt; omega) (by simp)

theorem reads_uint32 (n : UInt32) : Reads (fun _ => uint32) (.ofNat n.toNat) n :=
  reads_int (by omega) (by have := n.toNat_lt; omega) (by simp)

theorem reads_uint64 (n : UInt64) : Reads (fun _ => uint64) (.ofNat n.toNat) n :=
  reads_int (by omega) (by have := n.toNat_lt; omega) (by simp)

theorem reads_int8 (i : Int8) : Reads (fun _ => int8) (.ofInt i.toInt) i :=
  reads_int i.le_toInt (by have := i.toInt_lt; omega) (by simp)

theorem reads_int16 (i : Int16) : Reads (fun _ => int16) (.ofInt i.toInt) i :=
  reads_int i.le_toInt (by have := i.toInt_lt; omega) (by simp)

theorem reads_int32 (i : Int32) : Reads (fun _ => int32) (.ofInt i.toInt) i :=
  reads_int i.le_toInt (by have := i.toInt_lt; omega) (by simp)

theorem reads_int64 (i : Int64) : Reads (fun _ => int64) (.ofInt i.toInt) i :=
  reads_int i.le_toInt (by have := i.toInt_lt; omega) (by simp)

theorem reads_char (c : Char) : Reads (fun _ => char) (.string (String.ofList [c])) c := by
  intro depth
  have hstring : string (Json.string (String.ofList [c])).draft = .ok (String.ofList [c]) := rfl
  have hchar : char (Json.string (String.ofList [c])).draft = .ok c := by
    simp only [char, hstring, bind, Except.bind, String.toList_ofList]
    rfl
  exact hchar.trans (within_zero depth c).symm

/-! ## Optional values and lists -/

theorem reads_none {decode : Nat → Draft → Decoded α} :
    Reads (fun depth => optional (decode depth)) .null none :=
  fun depth => (within_zero depth none).symm

theorem Reads.some {decode : Nat → Draft → Decoded α} {j : Json} {a : α} (h : Reads decode j a)
    (hj : j ≠ .null) : Reads (fun depth => optional (decode depth)) j (some a) := by
  intro depth
  have hoptional : optional (decode depth) j.draft = Option.some <$> decode depth j.draft := by
    cases j with
    | null => exact absurd rfl hj
    | _ => rfl
  show optional (decode depth) j.draft = _
  rw [hoptional, h depth]
  exact within_then rfl

/-- An optional value, written as `null` where it is absent. -/
theorem reads_option {decode : Nat → Draft → Decoded β} {encode : α → Json} {f : α → β}
    (hj : ∀ a, encode a ≠ .null) (o : Option α)
    (h : ∀ a, o = .some a → Reads decode (encode a) (f a)) :
    Reads (fun depth => optional (decode depth)) (Json.option encode o) (o.map f) := by
  cases o with
  | none => exact reads_none
  | some a => exact (h a rfl).some (hj a)

/-- The decoder takes the values one after another for `as`. -/
def ReadsItems (decode : Nat → Draft → Decoded α) (items : List Json) (as : List α) : Prop :=
  ∀ depth, (Json.drafts items).mapM (decode depth) = within (Json.itemsHeight items) depth as

namespace ReadsItems

variable {decode : Nat → Draft → Decoded α} {j : Json} {items : List Json} {a : α} {as : List α}

theorem nil : ReadsItems decode [] [] := fun depth => (within_zero depth []).symm

theorem cons (h : Reads decode j a) (hs : ReadsItems decode items as) :
    ReadsItems decode (j :: items) (a :: as) := by
  intro depth
  rw [Json.drafts, List.mapM_cons, h depth]
  refine within_bind ?_
  rw [hs depth]
  exact within_then rfl

theorem map {encode : β → Json} {f : β → α} (bs : List β)
    (h : ∀ b ∈ bs, Reads decode (encode b) (f b)) :
    ReadsItems decode (bs.map encode) (bs.map f) := by
  induction bs with
  | nil => exact nil
  | cons b bs ih =>
      rw [List.forall_mem_cons] at h
      exact cons h.1 (ih h.2)

/-- An array is read once its items are. -/
theorem array {decodes : Nat → Draft → Decoded (List α)}
    (hzero : ∀ ds stop, decodes 0 (.array ds stop) = .error .malformed)
    (hsucc : ∀ depth d, decodes (depth + 1) d = Decode.items (decode depth) d)
    (h : ReadsItems decode items as) : Reads decodes (.array items) as := by
  intro depth
  cases depth with
  | zero => exact (hzero _ _).trans (within_succ_zero _ _).symm
  | succ depth =>
      rw [hsucc, Json.height, within_succ]
      show (Json.drafts items).mapM (decode depth) >>= finish none = _
      rw [h depth]
      exact within_then rfl

end ReadsItems

theorem Reads.list {decode : Nat → Draft → Decoded β} {encode : α → Json} {f : α → β}
    (as : List α) (h : ∀ a ∈ as, Reads decode (encode a) (f a)) :
    Reads (list decode) (.array (as.map encode)) (as.map f) :=
  (ReadsItems.map as h).array (fun _ _ => rfl) (fun _ _ => rfl)

/-! ## Fields -/

/-- Fields that lead from one value to another, each read where `depth` levels are left. -/
inductive Gathers (step : α → String → Draft → Decoded α) (depth : Nat) :
    α → List (String × Json) → α → Prop
  | nil {a : α} : Gathers step depth a [] a
  | cons {a b c : α} {key : String} {j : Json} {fields : List (String × Json)}
      (first : step a key j.draft = within j.height depth b)
      (rest : Gathers step depth b fields c) : Gathers step depth a ((key, j) :: fields) c

namespace Gathers

variable {step : α → String → Draft → Decoded α} {depth : Nat} {a b c : α}
  {fields others : List (String × Json)}

theorem append (hf : Gathers step depth a fields b) (ho : Gathers step depth b others c) :
    Gathers step depth a (fields ++ others) c := by
  induction hf with
  | nil => exact ho
  | cons first _ ih => exact .cons first (ih ho)

/-- Only what the steps do with the given keys counts. -/
theorem congr {step' : α → String → Draft → Decoded α} (h : Gathers step depth a fields b)
    (heq : ∀ f ∈ fields, ∀ a d, step' a f.1 d = step a f.1 d) :
    Gathers step' depth a fields b := by
  induction h with
  | nil => exact .nil
  | @cons a b c key j fields first rest ih =>
      obtain ⟨hkey, hfields⟩ := List.forall_mem_cons.1 heq
      exact .cons ((hkey a j.draft).trans first) (ih hfields)

theorem foldFields (h : Gathers step depth a fields b) :
    Decode.foldFields step a (Json.fieldDrafts fields) =
      within (Json.fieldsHeight fields) depth b := by
  induction h with
  | nil => exact (within_zero depth _).symm
  | @cons a b c key j fields first rest ih =>
      show (step a key j.draft >>= fun b => Decode.foldFields step b (Json.fieldDrafts fields)) = _
      rw [first]
      exact within_bind ih

/-- A written field is read to its end, so nothing is met when it is passed over. -/
theorem passing (h : Gathers step depth a fields b) : Gathers (passing step) depth a fields b := by
  induction h with
  | nil => exact .nil
  | @cons a b c key j fields first rest ih =>
      refine .cons ?_ ih
      rw [Decode.passing, first, Json.stop?_draft]
      exact within_then rfl

theorem gather {keys : List String} (h : Gathers step depth a fields b)
    (hk : keys.all (fun key => (fields.lookup key).isSome) = true) :
    Decode.gather keys step a (Json.fieldDrafts fields) none =
      within (Json.fieldsHeight fields) depth b := by
  have hall : (keys.all fun key =>
      ((Json.fieldDrafts fields).lookup (Option.some key)).isSome) = true := by
    simpa only [Json.lookup_fieldDrafts, Option.isSome_map] using hk
  rw [Decode.gather, h.passing.foldFields]
  refine within_then ?_
  simp only [finish, hall]
  rfl

end Gathers

/-- A record is read once its fields are. -/
theorem Reads.record {decode : Nat → Draft → Decoded α} {keys : List String}
    {step : Nat → α → String → Draft → Decoded α} {start a : α} {fields : List (String × Json)}
    (hzero : ∀ fs stop, decode 0 (.object fs stop) = .error .malformed)
    (hsucc : ∀ depth d, decode (depth + 1) d = Decode.record keys (step depth) start d)
    (hkeys : keys.all (fun key => (fields.lookup key).isSome) = true)
    (h : ∀ depth, Gathers (step depth) depth start fields a) :
    Reads decode (.object fields) a := by
  intro depth
  rw [Json.draft, Json.height]
  cases depth with
  | zero => rw [hzero, within_succ_zero]
  | succ depth =>
      rw [hsucc, within_succ]
      exact (h depth).gather hkeys

theorem height_le_of_lookup {fields : List (String × Json)} {key : String} {j : Json} {depth : Nat}
    (hd : Json.fieldsHeight fields ≤ depth) (hl : fields.lookup key = some j) :
    j.height ≤ depth := by
  induction fields with
  | nil => cases hl
  | cons f fields ih =>
      obtain ⟨k, value⟩ := f
      rw [Json.fieldsHeight] at hd
      rw [List.lookup_cons] at hl
      split at hl
      · obtain rfl : value = j := Option.some.inj hl
        omega
      · exact ih (by omega) hl

section

variable {decode : Draft → Decoded α} {fields : List (String × Json)} {key : String} {j : Json}
  {a : α} {depth : Nat} (hd : Json.fieldsHeight fields ≤ depth)

include hd

theorem field_ok (h : j.height ≤ depth → decode j.draft = .ok a)
    (hl : fields.lookup key = some j) : field (Json.fieldDrafts fields) key decode = .ok a := by
  rw [field, Json.lookup_fieldDrafts, hl]
  exact h (height_le_of_lookup hd hl)

theorem fieldD_ok {default : α} (h : j.height ≤ depth → decode j.draft = .ok a)
    (hl : fields.lookup key = some j) :
    fieldD (Json.fieldDrafts fields) key decode default = .ok a := by
  rw [fieldD, Json.lookup_fieldDrafts, hl]
  exact h (height_le_of_lookup hd hl)

theorem field?_ok {o : Option α} (h : j.height ≤ depth → optional decode j.draft = .ok o)
    (hl : fields.lookup key = some j) :
    field? (Json.fieldDrafts fields) key decode = .ok o :=
  fieldD_ok hd h hl

end

theorem field_absent {fields : List (String × Json)} {key : String} {decode : Draft → Decoded α}
    (hl : fields.lookup key = none) :
    field (Json.fieldDrafts fields) key decode = .error .mismatch := by
  rw [field, Json.lookup_fieldDrafts, hl]
  rfl

theorem fieldD_absent {fields : List (String × Json)} {key : String} {decode : Draft → Decoded α}
    {default : α} (hl : fields.lookup key = none) :
    fieldD (Json.fieldDrafts fields) key decode default = .ok default := by
  rw [fieldD, Json.lookup_fieldDrafts, hl]
  rfl

/-- An object without a required field is refused. -/
theorem gather_absent {keys : List String} {step : α → String → Draft → Decoded α} {start : α}
    {fields : List (String × Json)} {key : String} (hkey : key ∈ keys)
    (hl : fields.lookup key = none) :
    ∃ e, gather keys step start (Json.fieldDrafts fields) none = .error e := by
  cases hg : gather keys step start (Json.fieldDrafts fields) none with
  | error e => exact ⟨e, rfl⟩
  | ok a =>
      obtain ⟨_, _, hg⟩ := bind_eq_ok hg
      obtain ⟨_, _, hg⟩ := bind_eq_ok hg
      split at hg
      · rename_i hall
        have hfound := List.all_eq_true.1 hall key hkey
        rw [Json.lookup_fieldDrafts, hl] at hfound
        cases hfound
      · cases hg

/-! ## Values taken in whole -/

mutual

theorem whole_draft : (j : Json) → (depth : Nat) → whole depth j.draft = within j.height depth ()
  | .null, depth => (within_zero depth ()).symm
  | .bool _, depth => (within_zero depth ()).symm
  | .number _, depth => (within_zero depth ()).symm
  | .string _, depth => (within_zero depth ()).symm
  | .array items, 0 => (within_succ_zero _ ()).symm
  | .array items, depth + 1 => by
      show (wholeItems depth (Json.drafts items) >>= fun _ => finish none ()) = _
      rw [wholeItems_drafts items depth, Json.height, within_succ]
      exact within_then rfl
  | .object fields, 0 => (within_succ_zero _ ()).symm
  | .object fields, depth + 1 => by
      show (wholeFields depth (Json.fieldDrafts fields) >>= fun _ => finish none ()) = _
      rw [wholeFields_drafts fields depth, Json.height, within_succ]
      exact within_then rfl

theorem wholeItems_drafts : (items : List Json) → (depth : Nat) →
    wholeItems depth (Json.drafts items) = within (Json.itemsHeight items) depth ()
  | [], depth => (within_zero depth ()).symm
  | item :: items, depth => by
      rw [Json.drafts, wholeItems, whole_draft item depth]
      exact within_bind (wholeItems_drafts items depth)

theorem wholeFields_drafts : (fields : List (String × Json)) → (depth : Nat) →
    wholeFields depth (Json.fieldDrafts fields) = within (Json.fieldsHeight fields) depth ()
  | [], depth => (within_zero depth ()).symm
  | (key, value) :: fields, depth => by
      rw [Json.fieldDrafts, wholeFields, whole_draft value depth]
      exact within_bind (wholeFields_drafts fields depth)

end

/-! ## Properties that decoding preserves -/

theorem foldFields_preserves {step : α → String → Draft → Decoded α} {P : α → Prop}
    (hstep : ∀ a key d b, P a → step a key d = .ok b → P b) {fs : Fields} {a b : α} (ha : P a)
    (h : foldFields step a fs = .ok b) : P b := by
  induction fs generalizing a with
  | nil =>
      obtain rfl : a = b := Except.ok.inj h
      exact ha
  | cons f fs ih =>
      obtain ⟨key, d⟩ := f
      obtain ⟨c, hc, hrest⟩ := bind_eq_ok h
      cases key with
      | none => cases hc
      | some key => exact ih (hstep a key d c ha hc) hrest

theorem gather_preserves {step : α → String → Draft → Decoded α} {P : α → Prop}
    (hstep : ∀ a key d b, P a → step a key d = .ok b → P b) {keys : List String} {fs : Fields}
    {stop : Option Stop} {a b : α} (ha : P a) (h : gather keys step a fs stop = .ok b) : P b := by
  obtain ⟨c, hc, h⟩ := bind_eq_ok h
  obtain ⟨c', hc', h⟩ := bind_eq_ok h
  have hP : P c := by
    refine foldFields_preserves (fun a key d b ha h => ?_) ha hc
    obtain ⟨b', hb', h⟩ := bind_eq_ok h
    split at h
    · cases h
    · obtain rfl : b' = b := Except.ok.inj h
      exact hstep a key d b' ha hb'
  have hc : c = c' := by
    cases stop with
    | none => exact Except.ok.inj hc'
    | some why => cases hc'
  split at h
  · obtain rfl : c' = b := Except.ok.inj h
    exact hc ▸ hP
  · cases h

theorem record_preserves {step : α → String → Draft → Decoded α} {P : α → Prop}
    (hstep : ∀ a key d b, P a → step a key d = .ok b → P b) {keys : List String} {d : Draft}
    {a b : α} (ha : P a) (h : record keys step a d = .ok b) : P b := by
  cases d with
  | object fs stop => exact gather_preserves hstep ha h
  | _ => cases h

theorem mem_of_items {item : Draft → Decoded α} {d : Draft} {as : List α}
    (h : items item d = .ok as) : ∀ a ∈ as, ∃ d, item d = .ok a := by
  cases d with
  | array ds stop =>
      obtain ⟨as', has, h⟩ := bind_eq_ok h
      cases stop with
      | none =>
          obtain rfl : as' = as := Except.ok.inj h
          intro a ha
          obtain ⟨d, -, hd⟩ := mem_of_mapM has a ha
          exact ⟨d, hd⟩
      | some why => cases h
  | _ => cases h

theorem mem_of_list {item : Nat → Draft → Decoded α} {depth : Nat} {d : Draft} {as : List α}
    (h : list item depth d = .ok as) : ∀ a ∈ as, ∃ depth d, item depth d = .ok a := by
  cases depth with
  | zero => cases d <;> cases h
  | succ depth =>
      intro a ha
      obtain ⟨d, hd⟩ := mem_of_items h a ha
      exact ⟨depth, d, hd⟩

/-! ## Texts -/

/-- The printed text of a value is decoded like the value. -/
theorem Reads.text {decode : Nat → Draft → Decoded α} {j : Json} {a : α} (h : Reads decode j a)
    (hj : j.Exact) : text decode j.pretty = within j.height depthLimit a := by
  rw [Decode.text, Draft.scan_pretty hj]
  show (decode depthLimit j.draft >>= fun a => pure a) = _
  rw [h depthLimit]
  exact within_then rfl

end Decode

end MiddleEnd
