/-
  Runs that may fail, and lists of them. A run over a list gives what it gives for each item
  (`mapM_cons_ok`), and fails as it fails for one of them (`error_of_mapM`). What is found for the
  items of a list does not depend on their order (`mapM_perm`).
-/

namespace MiddleEnd

variable {ε α β : Type}

theorem toOption_eq_some {x : Except ε α} {a : α} : x.toOption = some a ↔ x = .ok a := by
  cases x <;> simp [Except.toOption]

theorem toOption_eq_none {x : Except ε α} : x.toOption = none ↔ ∃ e, x = .error e := by
  cases x <;> simp [Except.toOption]

theorem bind_eq_ok {x : Except ε α} {f : α → Except ε β} {b : β} (h : x >>= f = .ok b) :
    ∃ a, x = .ok a ∧ f a = .ok b := by
  cases x with
  | error e => cases h
  | ok a => exact ⟨a, rfl, h⟩

/-! ## One run for each item -/

section Runs

variable {find : α → Except ε β} {xs : List α} {found : List β}

theorem mapM_cons_ok {x : α} :
    (x :: xs).mapM find = .ok found ↔
      ∃ y ys, find x = .ok y ∧ xs.mapM find = .ok ys ∧ found = y :: ys := by
  rw [List.mapM_cons]
  constructor
  · intro h
    obtain ⟨y, hy, h⟩ := bind_eq_ok h
    obtain ⟨ys, hys, h⟩ := bind_eq_ok h
    exact ⟨y, ys, hy, hys, (Except.ok.inj h).symm⟩
  · rintro ⟨y, ys, hy, hys, rfl⟩
    rw [hy, hys]
    rfl

theorem ok_of_mapM (h : xs.mapM find = .ok found) : ∀ x ∈ xs, ∃ y, find x = .ok y := by
  induction xs generalizing found with
  | nil => exact fun _ hx => absurd hx List.not_mem_nil
  | cons x xs ih =>
      obtain ⟨y, ys, hx, hxs, -⟩ := mapM_cons_ok.mp h
      rw [List.forall_mem_cons]
      exact ⟨⟨y, hx⟩, ih hxs⟩

theorem mem_of_mapM (h : xs.mapM find = .ok found) : ∀ y ∈ found, ∃ x ∈ xs, find x = .ok y := by
  induction xs generalizing found with
  | nil =>
      obtain rfl : [] = found := Except.ok.inj h
      exact fun _ hy => absurd hy List.not_mem_nil
  | cons x xs ih =>
      obtain ⟨y, ys, hx, hxs, rfl⟩ := mapM_cons_ok.mp h
      rw [List.forall_mem_cons]
      refine ⟨⟨x, List.mem_cons_self, hx⟩, fun y' hy' => ?_⟩
      obtain ⟨x', hx', hfind⟩ := ih hxs y' hy'
      exact ⟨x', List.mem_cons_of_mem x hx', hfind⟩

theorem error_of_mapM {e : ε} (h : xs.mapM find = .error e) : ∃ x ∈ xs, find x = .error e := by
  induction xs with
  | nil => cases h
  | cons x xs ih =>
      rw [List.mapM_cons] at h
      rcases hx : find x with e' | y
      · rw [hx] at h
        obtain rfl : e' = e := Except.error.inj h
        exact ⟨x, List.mem_cons_self, hx⟩
      · rcases hxs : xs.mapM find with e' | ys
        · rw [hx, hxs] at h
          obtain rfl : e' = e := Except.error.inj h
          obtain ⟨x', hx', hfind⟩ := ih hxs
          exact ⟨x', List.mem_cons_of_mem x hx', hfind⟩
        · rw [hx, hxs] at h
          cases h

theorem mapM_ok (h : ∀ x ∈ xs, ∃ y, find x = .ok y) : ∃ found, xs.mapM find = .ok found := by
  rcases hxs : xs.mapM find with e | found
  · obtain ⟨x, hx, he⟩ := error_of_mapM hxs
    obtain ⟨y, hy⟩ := h x hx
    rw [hy] at he
    cases he
  · exact ⟨found, rfl⟩

end Runs

/-! ## Lists found for each item -/

section Lists

variable {find : α → Except ε (List β)} {xs : List α} {found : List (List β)}

theorem mem_flatten_of_mapM (h : xs.mapM find = .ok found) :
    ∀ y ∈ found.flatten, ∃ x ∈ xs, ∃ ys, find x = .ok ys ∧ y ∈ ys := by
  intro y hy
  obtain ⟨ys, hys, hy⟩ := List.mem_flatten.mp hy
  obtain ⟨x, hx, hfind⟩ := mem_of_mapM h ys hys
  exact ⟨x, hx, ys, hfind, hy⟩

/-- What is found for the items in one order is found for them in another. -/
theorem mapM_perm {ys : List α} (h : xs.Perm ys) (hf : xs.mapM find = .ok found) :
    ∃ found', ys.mapM find = .ok found' ∧ found.flatten.Perm found'.flatten := by
  induction h generalizing found with
  | nil => exact ⟨found, hf, .refl _⟩
  | cons x _ ih =>
      obtain ⟨a, as, ha, has, rfl⟩ := mapM_cons_ok.mp hf
      obtain ⟨bs, hbs, hperm⟩ := ih has
      exact ⟨a :: bs, mapM_cons_ok.mpr ⟨a, bs, ha, hbs, rfl⟩, hperm.append_left a⟩
  | swap x y xs =>
      obtain ⟨b, bs, hb, hbs, rfl⟩ := mapM_cons_ok.mp hf
      obtain ⟨a, as, ha, has, rfl⟩ := mapM_cons_ok.mp hbs
      have hyxs : (y :: xs).mapM find = .ok (b :: as) := mapM_cons_ok.mpr ⟨b, as, hb, has, rfl⟩
      refine ⟨a :: b :: as, mapM_cons_ok.mpr ⟨a, b :: as, ha, hyxs, rfl⟩, ?_⟩
      simp only [List.flatten_cons, ← List.append_assoc]
      exact List.perm_append_comm.append_right _
  | trans _ _ ih₁ ih₂ =>
      obtain ⟨bs, hbs, hperm₁⟩ := ih₁ hf
      obtain ⟨cs, hcs, hperm₂⟩ := ih₂ hbs
      exact ⟨cs, hcs, hperm₁.trans hperm₂⟩

end Lists

end MiddleEnd
