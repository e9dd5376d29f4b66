/-
  Collection of preconditions from code and from what guard instrumentation makes of it, side by
  side. `Tracks` says of both walks which facts they add, in terms of the accesses and calls of the
  code before instrumentation, and which temporaries the edited code takes. It holds of every piece
  of code without temporaries (`tracking_closed`). What it comes to: the value stored at the head of
  a group is resolved before the groups inside it are walked through, so the temporaries of these
  are unknown then, and the facts that need the value are dropped.
-/
import MiddleEnd.Proofs.Guard.Unguarded
import MiddleEnd.Proofs.Precondition.Facts

namespace MiddleEnd.Preconditions

open Guard

/-- `receiver.getter()` -/
def getterCall (receiver : Expr) (getter : MemberRef) : Expr :=
  (ExprForm.call (ExprForm.member (some receiver) getter).expr []).expr

/-- What an access relies on: its receiver is not null, unless the member is static. -/
def Relies (u : Universe) (a : Access) (p : Precondition) : Prop :=
  Instance u a.ref ∧ p = .nonNull a.receiver

/-- What the check of an access relies on, besides the receiver of the access: what the check and
    the getter declare, and that the guard is not null. -/
def CheckRelies (u : Universe) (w : WellKnown) (a : Access) (p : Precondition) : Prop :=
  ∃ k, checkpoint? u w a = some k ∧ (Declares u k.check p ∨ Declares u k.getter p ∨
    Unguarded u w (a.receiver.accesses .inner) ∧ Instance u k.check ∧
      p = .nonNull (getterCall a.receiver k.getter))

/-- What is told of an access once it is instrumented. -/
def ToldBehind (u : Universe) (w : WellKnown) (a : Access) (p : Precondition) : Prop :=
  Unguarded u w (a.receiver.accesses .inner) ∧ Relies u a p ∨ CheckRelies u w a p

/-- What is told of one of the accesses, or declared by a method that one of the expressions
    calls. -/
def Found (u : Universe) (told : Access → Precondition → Prop) (as : List Access) (es : List Expr)
    (p : Precondition) : Prop :=
  (∃ a ∈ as, told a p) ∨ ∃ e ∈ es, CallsDeclaring u e p

section

variable {u : Universe} {w : WellKnown} {told : Access → Precondition → Prop}

theorem found_nil {p : Precondition} : Found u told [] [] p ↔ False := by simp [Found]

theorem found_append {as bs : List Access} {es fs : List Expr} {p : Precondition} :
    Found u told (as ++ bs) (es ++ fs) p ↔ Found u told as es p ∨ Found u told bs fs p := by
  simp only [Found, List.mem_append, or_and_right, exists_or]
  exact or_or_or_comm

theorem found_access {a : Access} {as : List Access} {es : List Expr} {p : Precondition} :
    Found u told (a :: as) es p ↔ told a p ∨ Found u told as es p := by
  simp only [Found, List.mem_cons, or_and_right, exists_or, exists_eq_left, or_assoc]

theorem found_expr {as : List Access} {e : Expr} {es : List Expr} {p : Precondition} :
    Found u told as (e :: es) p ↔ CallsDeclaring u e p ∨ Found u told as es p := by
  simp only [Found, List.mem_cons, or_and_right, exists_or, exists_eq_left]
  exact or_left_comm

/-! ## What matters of an access -/

/-- What the collection and the instrumentation see of an access. -/
def use (u : Universe) (w : WellKnown) (a : Access) : Option Checkpoint × Expr × MemberRef :=
  (checkpoint? u w a, a.receiver, a.ref)

theorem relies_iff_of_use {a b : Access} (h : use u w a = use u w b) (p : Precondition) :
    Relies u a p ↔ Relies u b p := by
  obtain ⟨-, hreceiver, href⟩ : _ ∧ a.receiver = b.receiver ∧ a.ref = b.ref := by
    simpa [use] using h
  rw [Relies, Relies, hreceiver, href]

theorem toldBehind_iff_of_use {a b : Access} (h : use u w a = use u w b) (p : Precondition) :
    ToldBehind u w a p ↔ ToldBehind u w b p := by
  have hrelies := relies_iff_of_use h p
  obtain ⟨hk, hreceiver, -⟩ : checkpoint? u w a = checkpoint? u w b ∧
      a.receiver = b.receiver ∧ a.ref = b.ref := by simpa [use] using h
  rw [ToldBehind, ToldBehind, CheckRelies, CheckRelies, hrelies, hreceiver, hk]

theorem unguarded_iff_of_use {as bs : List Access} (h : as.map (use u w) = bs.map (use u w)) :
    Unguarded u w as ↔ Unguarded u w bs := by
  have hiff : ∀ cs : List Access, Unguarded u w cs ↔ ∀ x ∈ cs.map (use u w), x.1 = none := by
    simp [Unguarded, use]
  rw [hiff, hiff, h]

theorem exists_mem_iff_of_use {as bs : List Access} (h : as.map (use u w) = bs.map (use u w))
    {q : Access → Prop} (hq : ∀ {a b}, use u w a = use u w b → (q a ↔ q b)) :
    (∃ a ∈ as, q a) ↔ ∃ b ∈ bs, q b := by
  have half : ∀ {cs ds : List Access}, cs.map (use u w) = ds.map (use u w) →
      (∃ c ∈ cs, q c) → ∃ d ∈ ds, q d := by
    rintro cs ds h ⟨c, hc, hqc⟩
    obtain ⟨d, hd, hdc⟩ := List.mem_map.mp (h ▸ List.mem_map_of_mem hc)
    exact ⟨d, hd, (hq hdc).mpr hqc⟩
  exact ⟨half h, half h.symm⟩

theorem use_expr (e : Expr) (site site' : Site)
    (h : ∀ receiver ref, e.form = .member (some receiver) ref →
      checkpoint? u w ⟨site, receiver, ref⟩ = checkpoint? u w ⟨site', receiver, ref⟩) :
    (e.accesses site).map (use u w) = (e.accesses site').map (use u w) := by
  obtain ⟨form, type, source⟩ := e
  cases form with
  | member receiver ref =>
      cases receiver with
      | none => rfl
      | some receiver => simp [use, h receiver ref rfl]
  | _ => simp

theorem use_stmt (s : Stmt) (context context' : Context) :
    (s.accesses context).map (use u w) = (s.accesses context').map (use u w) := by
  obtain ⟨form, source⟩ := s
  cases form with
  | assignment target value =>
      have htarget := use_expr (u := u) (w := w) target (.assigned context value)
        (.assigned context' value) fun _ _ _ => rfl
      simp [htarget]
  | expression e =>
      exact use_expr e (.whole context) (.whole context') fun _ _ _ => rfl
  | _ => simp

theorem use_stmts (before : List Stmt) (ss : List Stmt) :
    (stmtsAccesses before ss).map (use u w) = (looseAccesses ss).map (use u w) := by
  induction ss generalizing before with
  | nil => rfl
  | cons s ss ih =>
      rw [stmtsAccesses, looseAccesses, List.map_append, List.map_append, ih,
        use_stmt s _ .alone]

end

/-! ## Both collections side by side -/

/-- Code and what instrumentation makes of it, which takes the temporaries from `n` to `n'`: `as`
    and `es` are the accesses and the expressions of the code, `es'` are the expressions of the
    edited code. Without guarded accesses the code stays (`same`), otherwise one of the temporaries
    occurs in it. `walk` and `walk'` collect preconditions from the two. -/
structure Tracks (u : Universe) (w : WellKnown) (as : List Access) (es es' : List Expr)
    (same : Prop) (walk walk' : Collect Unit) (n n' : Nat) : Prop where
  le : n ≤ n'
  same : Unguarded u w as → same
  taken : ¬Unguarded u w as →
    ∃ e ∈ es', ∃ id, e.temporary? = some id ∧ n ≤ id.index ∧ id.index < n'
  plain : NoTemporaries es → Follows 0 0 (Found u (Relies u) as es) walk
  behind : NoTemporaries es → Follows n n' (Found u (ToldBehind u w) as es) walk'

def isAssignment : StmtForm → Bool
  | .assignment _ _ => true
  | _ => false

namespace Tracks

variable {u : Universe} {w : WellKnown} {as bs : List Access} {es es' fs fs' : List Expr}
  {p q : Prop} {walk walk' next next' : Collect Unit} {n m n' : Nat}

theorem done (hp : p) : Tracks u w [] [] [] p (pure ()) (pure ()) n n where
  le := Nat.le_refl n
  same := fun _ => hp
  taken := fun h => absurd unguarded_nil h
  plain := fun _ => Follows.pure.congr fun _ => found_nil.symm
  behind := fun _ => Follows.pure.congr fun _ => found_nil.symm

theorem seq (h : Tracks u w as es es' p walk walk' n m)
    (hn : Tracks u w bs fs fs' q next next' m n') :
    Tracks u w (as ++ bs) (es ++ fs) (es' ++ fs') (p ∧ q) (walk >>= fun _ => next)
      (walk' >>= fun _ => next') n n' where
  le := Nat.le_trans h.le hn.le
  same := fun hu => by
    obtain ⟨ha, hb⟩ := unguarded_append.mp hu
    exact ⟨h.same ha, hn.same hb⟩
  taken := fun hu => by
    by_cases ha : Unguarded u w as
    · obtain ⟨e, he, id, hid, hge, hlt⟩ :=
        hn.taken fun hb => hu (unguarded_append.mpr ⟨ha, hb⟩)
      exact ⟨e, List.mem_append_right _ he, id, hid, Nat.le_trans h.le hge, hlt⟩
    · obtain ⟨e, he, id, hid, hge, hlt⟩ := h.taken ha
      exact ⟨e, List.mem_append_left _ he, id, hid, hge, Nat.lt_of_lt_of_le hlt hn.le⟩
  plain := fun ht => by
    obtain ⟨he, hf⟩ := noTemporaries_append.mp ht
    exact ((h.plain he).seq (hn.plain hf) (Nat.le_refl 0) (Nat.le_refl 0)).congr fun _ =>
      found_append.symm
  behind := fun ht => by
    obtain ⟨he, hf⟩ := noTemporaries_append.mp ht
    exact ((h.behind he).seq (hn.behind hf) h.le hn.le).congr fun _ => found_append.symm

theorem imp (h : Tracks u w as es es' p walk walk' n n') (hpq : p → q) :
    Tracks u w as es es' q walk walk' n n' :=
  ⟨h.le, fun hu => hpq (h.same hu), h.taken, h.plain, h.behind⟩

/-- Where accesses stand does not matter. -/
theorem of_use (h : Tracks u w as es es' p walk walk' n n')
    (hu : as.map (use u w) = bs.map (use u w)) : Tracks u w bs es es' p walk walk' n n' where
  le := h.le
  same := fun hb => h.same ((unguarded_iff_of_use hu).mpr hb)
  taken := fun hb => h.taken fun ha => hb ((unguarded_iff_of_use hu).mp ha)
  plain := fun ht => (h.plain ht).congr fun p => or_congr_left
    (exists_mem_iff_of_use hu fun hab => relies_iff_of_use hab p)
  behind := fun ht => (h.behind ht).congr fun p => or_congr_left
    (exists_mem_iff_of_use hu fun hab => toldBehind_iff_of_use hab p)

/-- A node that is no call adds nothing to its parts. -/
theorem node {form form' : ExprForm} {type : Option TypeRef} {source : Option SourceContext}
    (h : Tracks u w as es es' p ((visitor u).walkExpr form) ((visitor u).walkExpr form') n n')
    (hes : form.exprs false = es) (hes' : form'.exprs false = es')
    (hcall : ∀ callee arguments, form ≠ .call callee arguments) (hpq : p → q) :
    Tracks u w as (Expr.exprs false ⟨form, type, source⟩) (Expr.exprs false ⟨form', type, source⟩) q
      ((visitor u).visitExpr ⟨form, type, source⟩) ((visitor u).visitExpr ⟨form', type, source⟩)
      n n' := by
  have hnone : ∀ p, ¬CallsDeclaring u ⟨form, type, source⟩ p :=
    fun p ⟨callee, arguments, heq, _⟩ => hcall callee arguments heq
  rw [Expr.exprs, Expr.exprs, typeExprs_false, List.append_nil, List.append_nil, hes, hes']
  refine ⟨h.le, fun hu => hpq (h.same hu), fun hu => ?_, fun ht => ?_, fun ht => ?_⟩
  · obtain ⟨e, he, hid⟩ := h.taken hu
    exact ⟨e, List.mem_cons_of_mem _ he, hid⟩
  · exact (h.plain (noTemporaries_cons.mp ht).2).congr fun p => by simp [found_expr, hnone]
  · exact (h.behind (noTemporaries_cons.mp ht).2).congr fun p => by simp [found_expr, hnone]

/-- A statement that assigns to no temporary adds nothing to its parts. -/
theorem stmt {form form' : StmtForm} {source : Option SourceContext}
    (h : Tracks u w as es es' p ((visitor u).walkStmt form) ((visitor u).walkStmt form') n n')
    (hform : NoTemporaries es → ∀ target value, form = .assignment target value →
      target.temporary? = none)
    (hform' : NoTemporaries es → ∀ target value, form' = .assignment target value →
      target.temporary? = none) (hpq : p → q) :
    Tracks u w as es es' q ((visitor u).visitStmt ⟨form, source⟩)
      ((visitor u).visitStmt ⟨form', source⟩) n n' := by
  refine ⟨h.le, fun hu => hpq (h.same hu), h.taken, fun ht => ?_, fun ht => ?_⟩
  · rw [visitStmt_of_not_temporary source (hform ht)]
    exact h.plain ht
  · rw [visitStmt_of_not_temporary source (hform' ht)]
    exact h.behind ht

/-- A statement that is no assignment adds nothing to its parts. -/
theorem parts {form form' : StmtForm} {source : Option SourceContext}
    (h : Tracks u w as es es' p ((visitor u).walkStmt form) ((visitor u).walkStmt form') n n')
    (hform : isAssignment form = false) (hform' : isAssignment form' = false) (hpq : p → q) :
    Tracks u w as es es' q ((visitor u).visitStmt ⟨form, source⟩)
      ((visitor u).visitStmt ⟨form', source⟩) n n' := by
  have hnone : ∀ {f : StmtForm}, isAssignment f = false → ∀ target value,
      f = .assignment target value → target.temporary? = none := by
    rintro _ hf target value rfl
    cases hf
  exact h.stmt (fun _ => hnone hform) (fun _ => hnone hform') hpq

end Tracks

/-- An expression is no temporary if it was none, and names a declaring method if it did. -/
structure TracksExpr (u : Universe) (w : WellKnown) (e e' : Expr) (n n' : Nat) : Prop where
  tracks : Tracks u w (e.accesses .inner) (e.exprs false) (e'.exprs false) (e' = e)
    ((visitor u).visitExpr e) ((visitor u).visitExpr e') n n'
  temporary? : e'.temporary? = e.temporary?
  names : ∀ p, NamesDeclaring u e' p ↔ NamesDeclaring u e p

inductive TracksOption (u : Universe) (w : WellKnown) : Option Expr → Option Expr → Nat → Nat → Prop
  | none {n : Nat} : TracksOption u w none none n n
  | some {e e' : Expr} {n n' : Nat} (h : TracksExpr u w e e' n n') :
      TracksOption u w (some e) (some e') n n'

section

variable {u : Universe} {w : WellKnown} {n m n' : Nat}

theorem TracksOption.tracks {e e' : Option Expr} (h : TracksOption u w e e' n n') :
    Tracks u w (optionAccesses e) (optionExprs false e) (optionExprs false e') (e' = e)
      ((visitor u).visitOption e) ((visitor u).visitOption e') n n' := by
  cases h with
  | none => exact .done rfl
  | some h => exact h.tracks.imp fun heq => by rw [heq]

/-- What an edited expression resolves to before it is walked through: to what it was, if nothing
    in it is guarded, and to nothing otherwise, as its own temporaries are not yet known. -/
theorem TracksExpr.resolve {e e' : Expr} (h : TracksExpr u w e e' n n')
    (ht : NoTemporaries (e.exprs false)) :
    ∃ value : Option Expr, (∀ s : Spills, Unknown n n' s → s.resolve e' = value) ∧
      ∀ v, value = some v ↔ Unguarded u w (e.accesses .inner) ∧ v = e := by
  by_cases hu : Unguarded u w (e.accesses .inner)
  · refine ⟨some e, fun s _ => ?_, fun v => by simp [hu, eq_comm]⟩
    rw [h.tracks.same hu]
    exact Spills.resolve_of_noTemporaries ht
  · refine ⟨none, fun s hs => ?_, fun v => by simp [hu]⟩
    obtain ⟨t, hmem, id, hid, hge, hlt⟩ := h.tracks.taken hu
    exact Spills.resolve_of_missing ⟨t, hmem, id, hid, hs id hge hlt⟩

/-- An access relies on its receiver. -/
theorem visit_member (site : Site) {receiver : Expr} (ref : MemberRef)
    (ht : NoTemporaries (receiver.exprs false))
    (h : Follows 0 0 (Found u (Relies u) (receiver.accesses .inner) (receiver.exprs false))
      ((visitor u).visitExpr receiver)) :
    Follows 0 0
      (Found u (Relies u) (⟨site, receiver, ref⟩ :: receiver.accesses .inner)
        (receiver.exprs false))
      ((visitor u).walkExpr (.member (some receiver) ref)) := by
  have hnote : Adds (Unknown 0 0) _ (noteReceiver u (some receiver) ref) :=
    noteReceiver_adds receiver ref fun s _ => Spills.resolve_of_noTemporaries ht
  refine (hnote.before h).congr fun p => ?_
  rw [found_access, Relies]
  simp only [Option.some.injEq, exists_eq_left']

/-- An access that needs no check keeps its edited receiver. -/
theorem tracks_member {site : Site} {receiver receiver' : Option Expr} {ref : MemberRef}
    {type : Option TypeRef} {source : Option SourceContext}
    (h : TracksOption u w receiver receiver' n n')
    (hk : ∀ r, receiver = some r → checkpoint? u w ⟨site, r, ref⟩ = none) :
    Tracks u w (Expr.accesses site ⟨.member receiver ref, type, source⟩)
      (Expr.exprs false ⟨.member receiver ref, type, source⟩)
      (Expr.exprs false ⟨.member receiver' ref, type, source⟩)
      ((⟨.member receiver' ref, type, source⟩ : Expr) = ⟨.member receiver ref, type, source⟩)
      ((visitor u).visitExpr ⟨.member receiver ref, type, source⟩)
      ((visitor u).visitExpr ⟨.member receiver' ref, type, source⟩) n n' := by
  cases h with
  | none =>
      refine Tracks.node (.done trivial) rfl rfl (by simp) fun _ => rfl
  | @some r r' _ _ h =>
      have hk : checkpoint? u w ⟨site, r, ref⟩ = none := hk r rfl
      refine Tracks.node (p := r' = r) ?_ rfl rfl (by simp) fun heq => by rw [heq]
      refine ⟨h.tracks.le, fun hu => ?_, fun hu => ?_, fun ht => ?_, fun ht => ?_⟩
      · exact h.tracks.same (unguarded_cons.mp hu).2
      · exact h.tracks.taken fun hr => hu (unguarded_cons.mpr ⟨hk, hr⟩)
      · exact visit_member _ ref ht (h.tracks.plain ht)
      · obtain ⟨value, hv, hvalue⟩ := h.resolve ht
        refine ((noteReceiver_adds r' ref hv).before (h.tracks.behind ht)).congr fun p => ?_
        have htold : ToldBehind u w ⟨site, r, ref⟩ p ↔
            Instance u ref ∧ ∃ v, value = some v ∧ p = .nonNull v := by
          simp only [ToldBehind, Relies, CheckRelies, hk, hvalue]
          grind
        rw [Expr.accesses, ExprForm.accesses, found_access, ExprForm.exprs, optionExprs, htold]

/-! ## Groups -/

/-- What `temp.getter().check()` tells if the temporary has the value. -/
def ToldByCheck (u : Universe) (k : Checkpoint) (value : Option Expr) (p : Precondition) : Prop :=
  Declares u k.check p ∨ Declares u k.getter p ∨
    ∃ v, value = some v ∧ (Instance u k.check ∧ p = .nonNull (getterCall v k.getter) ∨
      Instance u k.getter ∧ p = .nonNull v)

theorem visit_check (id : LocalId) (type : Option TypeRef) (k : Checkpoint) (value : Option Expr) :
    Adds (fun s => s.get? id = value) (ToldByCheck u k value)
      ((visitor u).visitStmt (checkStmt ⟨.temporary id, type, none⟩ k.getter k.check)) := by
  let temp : Expr := ⟨.temporary id, type, none⟩
  let guard := getterCall temp k.getter
  let known : Spills → Prop := fun s => s.get? id = value
  have hcheck : Adds known _ (noteCall u (ExprForm.member (some guard) k.check).expr) :=
    noteCall_adds _
  have hguard : Adds known _ (noteReceiver u (some guard) k.check) :=
    noteReceiver_adds guard k.check fun s hs =>
      (Spills.resolve_call_temporary id type k.getter).trans (by rw [show s.get? id = _ from hs])
  have hgetter : Adds known _ (noteCall u (ExprForm.member (some temp) k.getter).expr) :=
    noteCall_adds _
  have htemp : Adds known _ (noteReceiver u (some temp) k.getter) :=
    noteReceiver_adds temp k.getter fun s hs => (Spills.resolve_temporary id type none).trans hs
  have hall : Adds known _ ((visitor u).visitStmt (checkStmt temp k.getter k.check)) :=
    hcheck.seq ((hguard.seq (hgetter.seq ((htemp.seq .pure).seq .pure))).seq .pure)
  refine hall.congr fun p => ?_
  simp only [ExprForm.expr, namesDeclaring_member, or_false, ToldByCheck]
  cases value with
  | none => simp
  | some v =>
      simp only [Option.map_some, Option.some.injEq, exists_eq_left', getterCall, ExprForm.expr]
      exact or_congr_right or_left_comm

/-- What the check and the access behind it tell. -/
def ToldByGroup (u : Universe) (k : Checkpoint) (ref : MemberRef) (value : Option Expr)
    (p : Precondition) : Prop :=
  ToldByCheck u k value p ∨ Instance u ref ∧ ∃ v, value = some v ∧ p = .nonNull v

/-- A group tells of an access what is left of it behind instrumentation, once its receiver is
    known exactly if nothing in it is guarded. -/
theorem toldByGroup_iff {a : Access} {k : Checkpoint} {value : Option Expr}
    (hk : checkpoint? u w a = some k) (hi : Instance u a.ref)
    (hvalue : ∀ v, value = some v ↔ Unguarded u w (a.receiver.accesses .inner) ∧ v = a.receiver)
    (p : Precondition) : ToldByGroup u k a.ref value p ↔ ToldBehind u w a p := by
  simp only [ToldByGroup, ToldByCheck, ToldBehind, Relies, CheckRelies, hk, hvalue,
    Option.some.injEq, exists_eq_left', hi, true_and]
  grind

/-- The receiver is stored, then the check and the read go through the temporary. -/
theorem visit_readGroup {e receiver : Expr} {ref getter : MemberRef} {facts : FieldFacts}
    {added : Precondition → Prop} {value : Option Expr}
    (hr : Follows n n' added ((visitor u).visitExpr receiver))
    (hv : ∀ s : Spills, Unknown n n' s → s.resolve receiver = value) (hn : n ≤ n') :
    Follows n (n' + 1)
      (fun p => added p ∨ ToldByGroup u ⟨getter, w.checkIsReading⟩ ref value p)
      ((visitor u).visitExpr (readGroup w ⟨n'⟩ e receiver ref facts getter)) := by
  let type := some (receiver.type.getD (.bound facts.declaringType))
  have hcheck := visit_check (u := u) ⟨n'⟩ type ⟨getter, w.checkIsReading⟩ value
  have hread : Adds (fun s => s.get? ⟨n'⟩ = value) _
      (noteReceiver u (some ⟨.temporary ⟨n'⟩, type, none⟩) ref) :=
    noteReceiver_adds _ ref fun s hs => (Spills.resolve_temporary _ _ _).trans hs
  have htail := hcheck.seq ((hread.seq .pure).seq .pure)
  exact (store_follows hr hv htail hn type).congr fun p => by simp only [or_false, ToldByGroup]

/-- Receiver and value are stored, then the check and the write go through the temporaries. -/
theorem visit_writeGroup {target receiver value : Expr} {source : Option SourceContext}
    {ref getter : MemberRef} {facts : FieldFacts} {added added' : Precondition → Prop}
    {known : Option Expr} (hr : Follows n m added ((visitor u).visitExpr receiver))
    (hx : Follows m n' added' ((visitor u).visitExpr value)) (hn : n ≤ m) (hm : m ≤ n')
    (hv : ∀ s : Spills, Unknown n m s → s.resolve receiver = known) :
    Follows n (n' + 2)
      (fun p => added p ∨ added' p ∨ ToldByGroup u ⟨getter, w.checkIsWriting⟩ ref known p)
      ((visitor u).visitStmt (writeGroup w ⟨n'⟩ ⟨n' + 1⟩ target receiver value source ref facts
        getter)) := by
  let type := some (receiver.type.getD (.bound facts.declaringType))
  have hcheck := visit_check (u := u) ⟨n'⟩ type ⟨getter, w.checkIsWriting⟩ known
  have hwrite : Adds (fun s => s.get? ⟨n'⟩ = known) _
      (noteReceiver u (some ⟨.temporary ⟨n'⟩, type, none⟩) ref) :=
    noteReceiver_adds _ ref fun s hs => (Spills.resolve_temporary _ _ _).trans hs
  have htail := hcheck.seq (((hwrite.seq .pure).seq .pure).seq .pure)
  exact (stores_follow hr hx hn hm hv htail type (some (value.type.getD facts.type))).congr
    fun p => by simp only [or_false, ToldByGroup]

theorem instance_of_readGuard {ref getter : MemberRef} {facts : FieldFacts}
    (hf : facts? u ref = some facts) (hg : facts.readGuard = some getter) : Instance u ref := by
  obtain ⟨member, field, owner, hm, hfield, ho⟩ := field_of_facts? hf
  rw [facts?_of_field hm hfield ho, Option.some_inj] at hf
  have hstatic : field.flags.isStatic = false := by
    rw [← hf, FieldFacts.readGuard] at hg
    split at hg
    · cases hg
    · rename_i hno
      simp only [Bool.or_eq_true, not_or, Bool.not_eq_true] at hno
      exact hno.1
  refine ⟨member, hm, ?_⟩
  obtain ⟨name, declaringType, attributes, kind, source⟩ := member
  cases kind <;> simp_all [Member.field?, Member.isStatic]

theorem not_declares_of_facts? {ref : MemberRef} {facts : FieldFacts}
    (hf : facts? u ref = some facts) (p : Precondition) : ¬Declares u ref p := by
  rintro ⟨method, hmethod, -⟩
  obtain ⟨member, field, owner, hm, hfield, -⟩ := field_of_facts? hf
  obtain ⟨member', hm', hmethod⟩ := Universe.method_eq_ok.mp hmethod
  rw [hm] at hm'
  cases hm'
  obtain ⟨name, declaringType, attributes, kind, source⟩ := member
  cases kind <;> simp_all [Member.field?, Member.method?]

/-- A guarded read becomes a group. -/
theorem tracks_readGroup {r r' : Expr} {ref getter : MemberRef} {facts : FieldFacts}
    {type : Option TypeRef} {source : Option SourceContext} (h : TracksExpr u w r r' n n')
    (hf : facts? u ref = some facts) (hg : facts.readGuard = some getter) :
    TracksExpr u w ⟨.member (some r) ref, type, source⟩
      (readGroup w ⟨n'⟩ ⟨.member (some r) ref, type, source⟩ r' ref facts getter) n (n' + 1) where
  tracks := by
    have hk : checkpoint? u w ⟨.inner, r, ref⟩ = some ⟨getter, w.checkIsReading⟩ := by
      simp [checkpoint?, readGetter?, hf, hg]
    refine Tracks.node (p := False) ?_ rfl rfl (by simp) False.elim
    refine ⟨Nat.le_succ_of_le h.tracks.le, fun hu => ?_, fun hu => ?_, fun ht => ?_, fun ht => ?_⟩
    · rw [Expr.accesses, ExprForm.accesses, unguarded_cons, hk] at hu
      cases hu.1
    · exact ⟨tempFor ⟨n'⟩ r' (.bound facts.declaringType), by simp [tempFor, Stmt.assignment], ⟨n'⟩,
        rfl, h.tracks.le, Nat.lt_succ_self n'⟩
    · exact visit_member _ ref ht (h.tracks.plain ht)
    · obtain ⟨value, hv, hvalue⟩ := h.resolve ht
      refine (visit_readGroup (e := ⟨.member (some r) ref, type, source⟩) (h.tracks.behind ht) hv
        h.tracks.le).congr fun p => ?_
      rw [Expr.accesses, ExprForm.accesses, found_access, ExprForm.exprs, optionExprs,
        ← toldByGroup_iff (a := ⟨.inner, r, ref⟩) hk (instance_of_readGuard hf hg) hvalue, or_comm]
  temporary? := rfl
  names := fun p => by
    rw [namesDeclaring_member, iff_false_right (not_declares_of_facts? hf p)]
    simp [readGroup, NamesDeclaring]

theorem temporary?_of_noTemporaries {e : Expr} (h : NoTemporaries (e.exprs false)) :
    e.temporary? = none := by
  obtain ⟨form, type, source⟩ := e
  exact (noTemporaries_cons.mp h).1

/-- An assignment that stays one, by its sides. -/
theorem tracks_assignment {as : List Access} {target target' value value' : Expr}
    {source : Option SourceContext}
    (ht : Tracks u w as (target.exprs false) (target'.exprs false) (target' = target)
      ((visitor u).visitExpr target) ((visitor u).visitExpr target') n m)
    (htemp : target'.temporary? = target.temporary?) (hv : TracksExpr u w value value' m n') :
    Tracks u w (as ++ value.accesses .inner) (target.exprs false ++ value.exprs false)
      (target'.exprs false ++ value'.exprs false)
      ((⟨.assignment target' value', source⟩ : Stmt) = ⟨.assignment target value, source⟩)
      ((visitor u).visitStmt ⟨.assignment target value, source⟩)
      ((visitor u).visitStmt ⟨.assignment target' value', source⟩) n n' := by
  refine Tracks.stmt (ht.seq hv.tracks) (fun hn => ?_) (fun hn => ?_) fun h => by rw [h.1, h.2]
  · rintro _ _ ⟨⟩
    exact temporary?_of_noTemporaries (noTemporaries_append.mp hn).1
  · rintro _ _ ⟨⟩
    rw [htemp]
    exact temporary?_of_noTemporaries (noTemporaries_append.mp hn).1

/-- A guarded write becomes a group. -/
theorem tracks_writeGroup {r r' value value' : Expr} {ref getter : MemberRef} {facts : FieldFacts}
    {type : Option TypeRef} {targetSource source : Option SourceContext}
    (h : TracksExpr u w r r' n m) (hx : TracksExpr u w value value' m n')
    (hf : facts? u ref = some facts) (hg : facts.writeGuard = some getter) :
    let target : Expr := ⟨.member (some r) ref, type, targetSource⟩
    let group := writeGroup w ⟨n'⟩ ⟨n' + 1⟩ target r' value' source ref facts getter
    Tracks u w (Stmt.accesses .alone ⟨.assignment target value, source⟩)
      (Stmt.exprs false ⟨.assignment target value, source⟩) (group.exprs false)
      (group = ⟨.assignment target value, source⟩)
      ((visitor u).visitStmt ⟨.assignment target value, source⟩) ((visitor u).visitStmt group)
      n (n' + 2) := by
  intro target group
  have hk : checkpoint? u w ⟨.assigned .alone value, r, ref⟩ =
      some ⟨getter, w.checkIsWriting⟩ := by
    simp [checkpoint?, writeGetter?, hf, hg]
  have hle := Nat.le_trans h.tracks.le hx.tracks.le
  have hcall : ∀ p, ¬CallsDeclaring u target p := by simp [CallsDeclaring, target]
  have hparts : NoTemporaries (Stmt.exprs false ⟨.assignment target value, source⟩) →
      NoTemporaries (r.exprs false) ∧ NoTemporaries (value.exprs false) := by
    simp only [target, Stmt.exprs, StmtForm.exprs, Expr.exprs, ExprForm.exprs, optionExprs,
      typeExprs_false, List.append_nil, noTemporaries_append, noTemporaries_cons]
    exact fun hn => ⟨hn.1.2, hn.2⟩
  have hfound : ∀ told p, Found u told (Stmt.accesses .alone ⟨.assignment target value, source⟩)
      (Stmt.exprs false ⟨.assignment target value, source⟩) p ↔
      (told ⟨.assigned .alone value, r, ref⟩ p ∨
        Found u told (r.accesses .inner) (r.exprs false) p) ∨
        Found u told (value.accesses .inner) (value.exprs false) p := by
    intro told p
    rw [Stmt.accesses, StmtForm.accesses, Stmt.exprs, StmtForm.exprs, found_append, Expr.accesses,
      ExprForm.accesses, found_access, Expr.exprs, found_expr, iff_false_intro (hcall p), false_or,
      typeExprs_false, List.append_nil, ExprForm.exprs, optionExprs]
  refine ⟨by omega, fun hu => ?_, fun hu => ?_, fun ht => ?_, fun ht => ?_⟩
  · have hnone := (unguarded_cons.mp (unguarded_append.mp hu).1).1
    rw [hk] at hnone
    cases hnone
  · exact ⟨tempFor ⟨n'⟩ r' (.bound facts.declaringType),
      by simp [group, writeGroup, tempFor, Stmt.assignment], ⟨n'⟩, rfl, hle, by simp⟩
  · obtain ⟨hr, hv⟩ := hparts ht
    have hwalk := (visit_member (.assigned .alone value) ref hr (h.tracks.plain hr)).seq
      (hx.tracks.plain hv) (Nat.le_refl 0) (Nat.le_refl 0)
    rw [visitStmt_of_not_temporary source (by rintro _ _ ⟨⟩; rfl)]
    refine hwalk.congr fun p => ?_
    rw [hfound, found_access]
  · obtain ⟨hr, hv⟩ := hparts ht
    obtain ⟨known, hknown, hvalue⟩ := h.resolve hr
    refine (visit_writeGroup (h.tracks.behind hr) (hx.tracks.behind hv) h.tracks.le hx.tracks.le
      hknown).congr fun p => ?_
    rw [hfound, ← toldByGroup_iff (a := ⟨.assigned .alone value, r, ref⟩) hk
      (instance_of_readGuard hf (readGuard_of_writeGuard hg)) hvalue]
    grind

/-- A call tells what its method declares, whatever becomes of its receiver. -/
theorem tracks_call {callee callee' : Expr} {arguments arguments' : List Expr}
    {type : Option TypeRef} {source : Option SourceContext} (hc : TracksExpr u w callee callee' n m)
    (ha : Tracks u w (exprsAccesses arguments) (exprsExprs false arguments)
      (exprsExprs false arguments') (arguments' = arguments) ((visitor u).visitExprs arguments)
      ((visitor u).visitExprs arguments') m n') :
    TracksExpr u w ⟨.call callee arguments, type, source⟩ ⟨.call callee' arguments', type, source⟩
      n n' where
  tracks := by
    have hparts := hc.tracks.seq ha
    have hcalls : ∀ p, CallsDeclaring u ⟨.call callee arguments, type, source⟩ p ↔
        NamesDeclaring u callee p := by
      intro p
      constructor
      · rintro ⟨_, _, ⟨⟩, h⟩
        exact h
      · exact fun h => ⟨callee, arguments, rfl, h⟩
    rw [Expr.exprs, Expr.exprs, typeExprs_false, List.append_nil, List.append_nil]
    refine ⟨hparts.le, fun hu => ?_, fun hu => ?_, fun ht => ?_, fun ht => ?_⟩
    · obtain ⟨h, h'⟩ := hparts.same hu
      rw [h, h']
    · obtain ⟨e, he, hid⟩ := hparts.taken hu
      exact ⟨e, List.mem_cons_of_mem _ he, hid⟩
    · refine ((noteCall_adds callee).before (hparts.plain (noTemporaries_cons.mp ht).2)).congr
        fun p => ?_
      rw [found_expr, hcalls]
      rfl
    · refine ((noteCall_adds callee').before (hparts.behind (noTemporaries_cons.mp ht).2)).congr
        fun p => ?_
      rw [found_expr, hcalls, hc.names]
      rfl
  temporary? := rfl
  names := fun p => by simp [NamesDeclaring]

/-! ## Instrumentation step by step -/

/-- Neither a member nor a call nor a temporary: what collection sees of it is in its parts. -/
def isStructural : ExprForm → Bool
  | .member _ _ | .call _ _ | .temporary _ => false
  | _ => true

theorem temporary?_of_isStructural {form : ExprForm} (h : isStructural form = true)
    (type : Option TypeRef) (source : Option SourceContext) :
    (⟨form, type, source⟩ : Expr).temporary? = none := by
  cases form with
  | temporary id => cases h
  | _ => rfl

theorem not_namesDeclaring_of_isStructural {form : ExprForm} (h : isStructural form = true)
    (type : Option TypeRef) (source : Option SourceContext) (p : Precondition) :
    ¬NamesDeclaring u ⟨form, type, source⟩ p := by
  rintro ⟨receiver, ref, rfl, -⟩
  cases h

theorem tracksExpr_node {form form' : ExprForm} {as : List Access} {es es' : List Expr} {p : Prop}
    {type : Option TypeRef} {source : Option SourceContext}
    (h : Tracks u w as es es' p ((visitor u).walkExpr form) ((visitor u).walkExpr form') n n')
    (has : form.accesses .inner = as) (hes : form.exprs false = es)
    (hes' : form'.exprs false = es') (hform : isStructural form = true)
    (hform' : isStructural form' = true) (hp : p → form' = form) :
    TracksExpr u w ⟨form, type, source⟩ ⟨form', type, source⟩ n n' where
  tracks := by
    rw [Expr.accesses, has]
    refine h.node hes hes' (fun callee arguments heq => ?_) fun hq => by rw [hp hq]
    rw [heq] at hform
    cases hform
  temporary? := by
    rw [temporary?_of_isStructural hform, temporary?_of_isStructural hform']
  names := fun q => iff_of_false (not_namesDeclaring_of_isStructural hform' type source q)
    (not_namesDeclaring_of_isStructural hform type source q)

end

/-- The two collections, for each class of code. -/
def tracking (u : Universe) (w : WellKnown) : EditRelation State where
  expr e s e' s' := TracksExpr u w e e' s.tempCount s'.tempCount
  walked e s e' s' := TracksExpr u w e e' s.tempCount s'.tempCount
  option e s e' s' := TracksOption u w e e' s.tempCount s'.tempCount
  exprs es s es' s' := Tracks u w (exprsAccesses es) (exprsExprs false es) (exprsExprs false es')
    (es' = es) ((visitor u).visitExprs es) ((visitor u).visitExprs es') s.tempCount s'.tempCount
  stmt st s st' s' := Tracks u w (st.accesses .alone) (st.exprs false) (st'.exprs false)
    (st' = st) ((visitor u).visitStmt st) ((visitor u).visitStmt st') s.tempCount s'.tempCount
  labeled st s st' s' := Tracks u w (labeledAccesses st) (labeledExprs false st)
    (labeledExprs false st') (st' = st) ((visitor u).visitLabeled st)
    ((visitor u).visitLabeled st') s.tempCount s'.tempCount
  stmts ss s ss' s' := Tracks u w (looseAccesses ss) (stmtsExprs false ss) (stmtsExprs false ss')
    (ss' = ss) ((visitor u).visitStmts ss) ((visitor u).visitStmts ss') s.tempCount s'.tempCount
  catchers cs s cs' s' := Tracks u w (catchersAccesses cs) (catchersExprs false cs)
    (catchersExprs false cs') (cs' = cs) ((visitor u).visitCatchers cs)
    ((visitor u).visitCatchers cs') s.tempCount s'.tempCount
  last b s b' s' := Tracks u w (lastAccesses b) (lastExprs false b) (lastExprs false b')
    (b' = b) ((visitor u).visitLast b) ((visitor u).visitLast b') s.tempCount s'.tempCount
  block b s b' s' := Tracks u w b.accesses (b.exprs false) (b'.exprs false) (b' = b)
    ((visitor u).visitBlock b) ((visitor u).visitBlock b') s.tempCount s'.tempCount

section

variable {u : Universe} {w : WellKnown} {receiver : Option Expr} {ref : MemberRef}
  {type : Option TypeRef} {source : Option SourceContext}

theorem tracking_member {edit : Edit State (Option Expr)}
    (h : edit.Yields ((tracking u w).option receiver)) :
    (editMember u w ⟨.member receiver ref, type, source⟩ ref edit).Yields
      ((tracking u w).walked ⟨.member receiver ref, type, source⟩) := by
  refine editMember_yields h (fun s r s' hr hn => ?_) (fun s r s' facts getter hr hf hg => ?_)
  · simp only [tracking, State.tempCount_noting] at hr
    refine ⟨tracks_member hr fun r₀ hsome => ?_, rfl, fun p => by simp⟩
    subst hsome
    cases hr
    have hget : readGetter? u ref = none := by simpa using hn
    simp [checkpoint?, hget]
  · simp only [tracking, State.tempCount_noting] at hr
    cases hr with
    | some hr => exact tracks_readGroup hr hf hg

theorem tracking_assignMember {targetSource : Option SourceContext} {value : Expr}
    {editTarget editValue : Edit State Expr} {editReceiver : Edit State (Option Expr)}
    (ht : editTarget.Yields ((tracking u w).expr ⟨.member receiver ref, type, targetSource⟩))
    (hv : editValue.Yields ((tracking u w).expr value))
    (hr : editReceiver.Yields ((tracking u w).option receiver)) :
    (editAssignment u w ⟨⟨.member receiver ref, type, targetSource⟩, value, source, editTarget,
      editValue, editReceiver⟩).Yields
      ((tracking u w).stmt
        ⟨.assignment ⟨.member receiver ref, type, targetSource⟩ value, source⟩) := by
  refine editAssignment_yields ht hv hr (fun s t s₁ v s' hf ht hv => ?_)
    (fun s r s₁ v s' hr hv _ hg => ?_) (fun s r s₁ v s' facts getter hr hv hf hg => ?_)
  · simp only [tracking, State.tempCount_noting] at ht hv
    have huse := ht.tracks.of_use (use_expr _ .inner (.assigned .alone value) fun _ _ heq => by
      cases heq
      simp [checkpoint?, readGetter?, writeGetter?, hf])
    exact tracks_assignment huse ht.temporary? hv
  · simp only [tracking, State.tempCount_noting] at hr hv
    refine tracks_assignment (tracks_member hr fun r₀ hsome => ?_) rfl hv
    subst hsome
    cases hr
    have hget : writeGetter? u ref = none := by simpa using hg
    simp [checkpoint?, hget]
  · simp only [tracking, State.tempCount_noting] at hr hv
    cases hr with
    | some hr => exact tracks_writeGroup hr hv hf hg

theorem tracking_assign {target value : Expr} {editTarget editValue : Edit State Expr}
    (hm : ∀ receiver ref, target.form ≠ .member receiver ref)
    (ht : editTarget.Yields ((tracking u w).expr target))
    (hv : editValue.Yields ((tracking u w).expr value)) :
    (editAssignment u w ⟨target, value, source, editTarget, editValue, pure none⟩).Yields
      ((tracking u w).stmt ⟨.assignment target value, source⟩) := by
  rw [editAssignment_walk hm]
  refine AssignmentParts.walk_yields ht hv fun s t s₁ v s' ht hv => ?_
  have huse := ht.tracks.of_use (use_expr _ .inner (.assigned .alone value) fun r ref heq =>
    absurd heq (hm (some r) ref))
  exact tracks_assignment huse ht.temporary? hv

theorem tracking_leaf {form : ExprForm} {n : Nat} (h : form.isLeaf = true) :
    TracksExpr u w ⟨form, type, source⟩ ⟨form, type, source⟩ n n := by
  refine ⟨?_, rfl, fun p => Iff.rfl⟩
  have has : Expr.accesses .inner ⟨form, type, source⟩ = [] := by
    cases form <;> simp_all [ExprForm.isLeaf]
  have hes : form.exprs false = [] := ExprForm.exprs_leaf h
  rw [has]
  refine Tracks.node (p := True) ?_ hes hes (fun _ _ heq => ?_) fun _ => rfl
  · rw [Visitor.walkExpr_leaf _ h]
    exact .done trivial
  · rw [heq] at h
    cases h

end

theorem tracking_closed (u : Universe) (w : WellKnown) : (tracking u w).Closed (editor u w) := by
  constructor
  case expr => exact fun h => h
  case member => exact tracking_member
  case call =>
    intro callee arguments type source walk h s
    obtain ⟨_, s', run, callee', s₁, arguments', hc, ha, rfl⟩ := h s
    exact ⟨_, s', run, tracks_call hc ha⟩
  case assignMember => exact tracking_assignMember
  case assign => exact tracking_assign
  case leaf => exact tracking_leaf
  case qualified =>
    intro _ _ _ _ _ _ _ hq
    exact tracksExpr_node hq.tracks rfl rfl rfl rfl rfl fun h => by rw [h]
  case binary =>
    intro _ _ _ _ _ _ _ _ _ _ hl hr
    exact tracksExpr_node (hl.tracks.seq hr.tracks) rfl rfl rfl rfl rfl fun h => by rw [h.1, h.2]
  case assignment =>
    intro _ _ _ _ _ _ hs
    exact tracksExpr_node hs rfl rfl rfl rfl rfl fun h => by rw [h]
  case cast =>
    intro _ _ _ _ _ _ _ ho
    exact tracksExpr_node ho.tracks rfl (by simp) (by simp) rfl rfl fun h => by rw [h]
  case indexer =>
    intro _ _ _ _ _ _ _ _ _ ho hs
    exact tracksExpr_node (ho.tracks.seq hs) rfl rfl rfl rfl rfl fun h => by rw [h.1, h.2]
  case constructArray =>
    intro _ _ _ _ _ _ _ _ _ _ hs hi
    exact tracksExpr_node (hs.tracks.seq hi) rfl (by simp) (by simp) rfl rfl
      fun h => by rw [h.1, h.2]
  case construct =>
    intro _ _ _ _ _ _ _ ho
    exact tracksExpr_node ho rfl (by simp) (by simp) rfl rfl fun h => by rw [h]
  case constructDelegate =>
    intro _ _ _ _ _ _ _ _ ht
    exact tracksExpr_node ht.tracks rfl (by simp) (by simp) rfl rfl fun h => by rw [h]
  case addressOf =>
    intro _ _ _ _ _ _ ho
    exact tracksExpr_node ho.tracks rfl rfl rfl rfl rfl fun h => by rw [h]
  case blockExpr =>
    intro _ _ _ _ _ _ hb
    exact tracksExpr_node hb rfl rfl rfl rfl rfl fun h => by rw [h]
  case optionNone => exact .none
  case optionSome => exact .some
  case exprsNil | labeledNone | stmtsNil | catchersNil | lastNone => exact .done rfl
  case exprsCons =>
    intro _ _ _ _ _ _ _ he hs
    exact (he.tracks.seq hs).imp fun h => by rw [h.1, h.2]
  case attachEvent =>
    intro _ _ _ _ _ _ _ _ he hh
    exact (he.tracks.seq hh.tracks).parts rfl rfl fun h => by rw [h.1, h.2]
  case removeEvent =>
    intro _ _ _ _ _ _ _ _ he hh
    exact (he.tracks.seq hh.tracks).parts rfl rfl fun h => by rw [h.1, h.2]
  case branch =>
    intro _ _ _ _ _ _ _ _ _ _ _ hc ht hf
    exact ((hc.tracks.seq ht).seq hf).parts rfl rfl fun h => by rw [h.1.1, h.1.2, h.2]
  case expression =>
    intro e _ _ _ _ he
    have huse := use_expr (u := u) (w := w) e .inner (.whole .alone)
      fun _ _ _ => rfl
    exact (he.tracks.of_use huse).parts rfl rfl fun h => by rw [h]
  case labeledStmt =>
    intro label statement _ _ statement' _ hs
    refine Tracks.parts (p := statement' = statement) ?_ rfl rfl fun h => by rw [h]
    exact hs
  case blockStmt =>
    intro block _ _ block' _ hb
    refine Tracks.parts (p := block' = block) ?_ rfl rfl fun h => by rw [h]
    exact hb
  case loop =>
    intro _ _ _ _ _ _ _ _ _ _ _ _ _ _ hi ht hs hb
    exact (((hi.seq ht.tracks).seq hs).seq hb).parts rfl rfl
      fun h => by rw [h.1.1.1, h.1.1.2, h.1.2, h.2]
  case ret | raise =>
    intro _ _ _ _ _ hv
    exact hv.tracks.parts rfl rfl fun h => by rw [h]
  case protect =>
    intro _ _ _ _ _ _ _ _ _ _ _ hb hc hl
    exact ((hb.seq hc).seq hl).parts rfl rfl fun h => by rw [h.1.1, h.1.2, h.2]
  case declaration =>
    intro name type init source s init' s' hi
    simp only [tracking, Stmt.exprs, StmtForm.exprs, TypeRef.exprs_false, List.nil_append]
    exact hi.tracks.parts rfl rfl fun h => by rw [h]
  case goto | snippet =>
    intros
    exact (Tracks.done trivial).parts rfl rfl fun _ => rfl
  case labeledSome | lastSome =>
    intro _ _ _ _ h
    exact h.imp fun h => by rw [h]
  case stmtsCons =>
    intro _ _ _ _ _ _ _ hs hss
    exact (hs.seq hss).imp fun h => by rw [h.1, h.2]
  case catchersCons =>
    intro type name block cs s block' s₁ cs' s' hb hc
    simp only [tracking, catchersExprs, typeExprs_false, List.nil_append]
    exact (hb.seq hc).imp fun h => by rw [h.1, h.2]
  case block =>
    intro statements source s statements' s' h
    exact (h.of_use (use_stmts [] statements).symm).imp fun h => by rw [h]

end MiddleEnd.Preconditions
