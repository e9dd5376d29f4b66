/-
  Assembly references. A lowering asks the resolver once for each name, with the keys that are
  referenced at that moment, and loses no answer: a reference with a new key is added behind the
  others, a known key is passed over, and a failure becomes an error (`references_lossless`). The
  resolver may answer by what it was asked before; what it is asked and what it answers is written
  down as a dialogue. `newcomers` says which of the answers are added, without the loop.
-/
import MiddleEnd.Proofs.Lowering.Accounting

namespace MiddleEnd

def Module.keys (m : Module) : List String := m.references.map (·.key)

namespace Lowering

/-! ## Newcomers -/

/-- The references whose key is neither among `known` nor that of an earlier reference. -/
def newcomers (known : List String) (found : List AssemblyReference) : List AssemblyReference :=
  (found.zipIdx.filter fun p =>
    p.1.key ∉ known ∧ p.1.key ∉ (found.take p.2).map (·.key)).map (·.1)

section

variable {known known' : List String} {r : AssemblyReference} {found : List AssemblyReference}

theorem newcomers_congr (h : ∀ key, key ∈ known ↔ key ∈ known') (found : List AssemblyReference) :
    newcomers known found = newcomers known' found := by
  simp only [newcomers, h]

/-- Behind a first reference its key counts as known. -/
theorem newcomers_cons (known : List String) (r : AssemblyReference)
    (found : List AssemblyReference) :
    newcomers known (r :: found) =
      (if r.key ∈ known then [] else [r]) ++ newcomers (known ++ [r.key]) found := by
  have hrest : ∀ p : AssemblyReference × Nat,
      (p.1.key ∉ known ∧ p.1.key ∉ ((r :: found).take (p.2 + 1)).map (·.key)) ↔
        (p.1.key ∉ known ++ [r.key] ∧ p.1.key ∉ (found.take p.2).map (·.key)) := by
    intro p
    simp only [List.take_succ_cons, List.map_cons, List.mem_cons, List.mem_append,
      List.not_mem_nil, or_false, not_or, and_assoc]
  unfold newcomers
  rw [List.zipIdx_cons, List.zipIdx_succ, List.filter_cons, List.filter_map]
  simp only [Function.comp_def, hrest, List.take_zero, List.map_nil, List.not_mem_nil,
    not_false_eq_true, and_true, decide_not]
  by_cases h : r.key ∈ known <;> simp [h, Function.comp_def]

theorem newcomers_cons_known (h : r.key ∈ known) :
    newcomers known (r :: found) = newcomers known found := by
  rw [newcomers_cons, if_pos h, List.nil_append]
  refine newcomers_congr (fun key => ?_) found
  simp only [List.mem_append, List.mem_singleton, or_iff_left_iff_imp]
  rintro rfl
  exact h

theorem newcomers_cons_new (h : r.key ∉ known) :
    newcomers known (r :: found) = r :: newcomers (known ++ [r.key]) found := by
  rw [newcomers_cons, if_neg h, List.singleton_append]

@[simp]
theorem newcomers_nil (known : List String) : newcomers known [] = [] := rfl

/-- What comes later sees the keys of the newcomers before it. -/
theorem newcomers_append (known : List String) (found more : List AssemblyReference) :
    newcomers known (found ++ more) = newcomers known found ++
      newcomers (known ++ (newcomers known found).map (·.key)) more := by
  induction found generalizing known with
  | nil => simp
  | cons r found ih =>
      by_cases hr : r.key ∈ known
      · rw [List.cons_append, newcomers_cons_known hr, newcomers_cons_known hr, ih]
      · rw [List.cons_append, newcomers_cons_new hr, newcomers_cons_new hr, ih, List.map_cons,
          List.append_assoc known, List.singleton_append, List.cons_append]

/-- Distinct keys stay distinct. -/
theorem nodup_append_newcomers (h : known.Nodup) (found : List AssemblyReference) :
    (known ++ (newcomers known found).map (·.key)).Nodup := by
  induction found generalizing known with
  | nil => simpa using h
  | cons r found ih =>
      by_cases hr : r.key ∈ known
      · rw [newcomers_cons_known hr]
        exact ih h
      · rw [newcomers_cons_new hr, List.map_cons, List.append_cons]
        refine ih (List.nodup_append.mpr ⟨h, by simp, ?_⟩)
        rintro key hkey _ hsame rfl
        obtain rfl := List.mem_singleton.mp hsame
        exact hr hkey

end

/-! ## Dialogues -/

/-- A question to the resolver, and its answer. -/
structure Exchange where
  name : String
  /-- The keys that are referenced when the question is put. -/
  known : List String
  answer : Except ResolveError AssemblyReference

namespace Exchange

def resolved? (e : Exchange) : Option AssemblyReference := e.answer.toOption

/-- The error that a failure leads to. -/
def complaint? (e : Exchange) : Option Diagnostic :=
  match e.answer with
  | .ok _ => none
  | .error error => some (unresolved e.name error)

end Exchange

variable {σ : Type} (host : Host σ)

/-- Put one after the other, the questions get these answers and take the resolver from one state to
    the other. -/
inductive Dialogue : σ → List Exchange → σ → Prop where
  | done (h : σ) : Dialogue h [] h
  | ask {h h₁ h' : σ} {e : Exchange} {es : List Exchange} :
    host.resolve e.name e.known h = (e.answer, h₁) → Dialogue h₁ es h' → Dialogue h (e :: es) h'

theorem Dialogue.trans {host : Host σ} {h h₁ h' : σ} {es es' : List Exchange}
    (hfirst : Dialogue host h es h₁) (hrest : Dialogue host h₁ es' h') :
    Dialogue host h (es ++ es') h' := by
  induction hfirst with
  | done => exact hrest
  | ask hanswer _ ih => exact .ask hanswer (ih hrest)

/-- How a dialogue shows in the state of a lowering. -/
structure Accounts (s : LoweringState σ) (es : List Exchange) (s' : LoweringState σ) : Prop where
  dialogue : Dialogue host s.host es s'.host
  /-- Each question is put with the keys that are referenced by then. -/
  known : ∀ before e after, es = before ++ e :: after →
    e.known = s.module.keys ++
      (newcomers s.module.keys (before.filterMap Exchange.resolved?)).map (·.key)
  module_eq : s'.module = { s.module with
    references := s.module.references ++
      newcomers s.module.keys (es.filterMap Exchange.resolved?) }
  errors_eq : s'.errors = s.errors ++ es.filterMap Exchange.complaint?

namespace Accounts

variable {host} {s s₁ s' : LoweringState σ} {es es' : List Exchange}

theorem refl (s : LoweringState σ) : Accounts host s [] s where
  dialogue := .done s.host
  known := fun before e after h => absurd h.symm (by simp)
  module_eq := by simp
  errors_eq := by simp

theorem keys_eq (h : Accounts host s es s₁) :
    s₁.module.keys = s.module.keys ++
      (newcomers s.module.keys (es.filterMap Exchange.resolved?)).map (·.key) := by
  rw [h.module_eq]
  exact List.map_append

theorem trans (h : Accounts host s es s₁) (h' : Accounts host s₁ es' s') :
    Accounts host s (es ++ es') s' where
  dialogue := h.dialogue.trans h'.dialogue
  known := by
    intro before e after hsplit
    rcases List.append_eq_append_iff.mp hsplit with ⟨middle, rfl, hes'⟩ | ⟨middle, rfl, hafter⟩
    · rw [h'.known middle e after hes', h.keys_eq, List.filterMap_append, newcomers_append,
        List.map_append, List.append_assoc]
    · rcases List.cons_eq_append_iff.mp hafter with ⟨rfl, rfl⟩ | ⟨rest, rfl, -⟩
      · rw [List.append_nil] at h
        simpa [h.keys_eq] using h'.known [] e after rfl
      · exact h.known before e rest rfl
  module_eq := by
    rw [h'.module_eq, h.keys_eq, h.module_eq, List.filterMap_append, newcomers_append,
      List.append_assoc]
  errors_eq := by
    rw [h'.errors_eq, h.errors_eq, List.filterMap_append, List.append_assoc]

/-- One question. -/
theorem single {e : Exchange} (hanswer : host.resolve e.name e.known s.host = (e.answer, s'.host))
    (hknown : e.known = s.module.keys)
    (hmodule : s'.module = { s.module with
      references := s.module.references ++ newcomers s.module.keys e.resolved?.toList })
    (herrors : s'.errors = s.errors ++ e.complaint?.toList) : Accounts host s [e] s' where
  dialogue := .ask hanswer (.done s'.host)
  known := by
    intro before e' after hsplit
    obtain ⟨rfl, hrest⟩ | ⟨rfl, hrest⟩ := List.singleton_eq_append_iff.mp hsplit
    · obtain ⟨rfl, -⟩ := List.cons.inj hrest
      simpa using hknown
    · cases hrest
  module_eq := by rw [hmodule, filterMap_cons_toList, List.filterMap_nil, List.append_nil]
  errors_eq := by rw [herrors, filterMap_cons_toList, List.filterMap_nil, List.append_nil]

end Accounts

/-! ## The run -/

/-- A name is asked for, the answer is accounted for, and the run goes on with the keys that are
    referenced then. -/
theorem references_cons (name : String) (names : List String) (s : LoweringState σ) :
    ∃ e s₁, e.name = name ∧ Accounts host s [e] s₁ ∧
      references host s.module.keys (name :: names) s =
        references host s₁.module.keys names s₁ := by
  rcases hanswer : host.resolve name s.module.keys s.host with ⟨answer, h⟩
  have hask : Lower.ask (host.resolve name s.module.keys) s = (answer, { s with host := h }) := by
    rw [Lower.ask, hanswer]
  refine ⟨⟨name, s.module.keys, answer⟩, ?_⟩
  rw [references, StateM.bind_run, hask]
  cases answer with
  | ok reference =>
      dsimp only
      have hnew : Exchange.resolved? ⟨name, s.module.keys, .ok reference⟩ = some reference := rfl
      by_cases hseen : reference.key ∈ s.module.keys
      · rw [if_pos (List.contains_iff_mem.mpr hseen)]
        refine ⟨{ s with host := h, trace := s.trace ++ [.referencePresent name] }, rfl, ?_, rfl⟩
        refine .single hanswer rfl ?_ (List.append_nil _).symm
        rw [hnew, Option.toList_some, newcomers_cons_known hseen, newcomers_nil, List.append_nil]
      · rw [if_neg (fun hc => hseen (List.contains_iff_mem.mp hc))]
        refine ⟨{ s with
          host := h
          module := { s.module with references := s.module.references ++ [reference] } },
          rfl, ?_, ?_⟩
        · refine .single hanswer rfl ?_ (List.append_nil _).symm
          rw [hnew, Option.toList_some, newcomers_cons_new hseen, newcomers_nil]
        · simp only [Module.keys, List.map_append]
          rfl
  | error error =>
      refine ⟨{ s with
        host := h
        trace := s.trace ++ [.referenceUnresolved name error]
        errors := s.errors ++ [unresolved name error] }, rfl, ?_, rfl⟩
      exact .single hanswer rfl (by simp [Exchange.resolved?, Except.toOption]) rfl

theorem references_accountable (names : List String) (s : LoweringState σ) :
    ∃ es, es.map (·.name) = names ∧
      Accounts host s es (references host s.module.keys names s).2 := by
  induction names generalizing s with
  | nil => exact ⟨[], rfl, .refl s⟩
  | cons name names ih =>
      obtain ⟨e, s₁, rfl, hfirst, hrun⟩ := references_cons host name names s
      obtain ⟨es, rfl, hrest⟩ := ih s₁
      rw [hrun]
      exact ⟨e :: es, rfl, hfirst.trans hrest⟩

theorem eraseDups_of_nodup {keys : List String} (h : keys.Nodup) : keys.eraseDups = keys := by
  induction keys with
  | nil => rfl
  | cons key keys ih =>
      obtain ⟨hkey, hkeys⟩ := List.nodup_cons.mp h
      have hfilter : keys.filter (fun k => !k == key) = keys := by
        refine List.filter_eq_self.mpr fun k hk => ?_
        simp only [Bool.not_eq_true', beq_eq_false_iff_ne]
        rintro rfl
        exact hkey hk
      rw [List.eraseDups_cons, hfilter, ih hkeys]

/-- Where the referenced keys are distinct they stay so. The resolver is asked for the names, one
    question each, and the module and the sink show its answers, each in its place: the references
    that were there, then the newcomers, and one error for each failure. -/
theorem references_lossless (names : List String) {s : LoweringState σ}
    (hkeys : s.module.keys.Nodup) :
    let s' := (references host s.module.keys.eraseDups names s).2
    s'.module.keys.Nodup ∧ ∃ es, es.map (·.name) = names ∧ Accounts host s es s' := by
  rw [eraseDups_of_nodup hkeys]
  obtain ⟨es, hnames, haccounts⟩ := references_accountable host names s
  refine ⟨?_, es, hnames, haccounts⟩
  rw [haccounts.keys_eq]
  exact nodup_append_newcomers hkeys _

/-- Knows the core library under two names, and is tired of questions after the third. -/
def clerk : Host Nat where
  resolve name _ := fun asked =>
    (if asked < 3 then .ok ⟨name, if name = "corlib" then "mscorlib" else name⟩
      else .error (.notFound name), asked + 1)
  document file line text := return ⟨file, line, text⟩

/-- One name for a library that is there, a new one, the new one again, and one too many. -/
theorem references_lossless_clerk :
    let s : LoweringState Nat :=
      ⟨{ id := ⟨0⟩, name := "App", references := [⟨"mscorlib", "mscorlib"⟩] }, [], [], 0⟩
    let s' := (references clerk s.module.keys.eraseDups ["corlib", "System", "System", "Data"] s).2
    s.module.keys.Nodup ∧
      (s'.module.keys.Nodup ∧ ∃ es, es.map (·.name) = ["corlib", "System", "System", "Data"] ∧
        Accounts clerk s es s') ∧
      s'.module.references = [⟨"mscorlib", "mscorlib"⟩, ⟨"System", "System"⟩] ∧
      s'.errors = [unresolved "Data" (.notFound "Data")] :=
  ⟨by decide, references_lossless clerk _ (by decide), by decide, by decide⟩

end Lowering

end MiddleEnd
