/-
  What guards shield from elimination. Instrumentation puts a block in place of a guarded access,
  and deletion does not climb out of a block. So a statement goes behind both passes if it holds a
  dead call that no guarded access around it shields (`Lost`), and this can be read off the code as
  it was before. Chain calls stay chain calls through instrumentation unless what they call is a
  guarded field. Together this tells whether the first statement that is left is a chain call
  (`opensBehind_guarded`). All of it holds of instrumented code again, so it does not matter how
  often a body is instrumented.
-/
import MiddleEnd.Proofs.Conditional.Deletion
import MiddleEnd.Proofs.Lowering.Chain
import MiddleEnd.Proofs.Pipeline.Temporaries

namespace MiddleEnd

namespace Pipeline

open Conditional Guard

/-- The fields whose reads and writes become blocks. -/
structure Shields where
  read : MemberRef → Bool
  write : MemberRef → Bool

namespace Shields

def none : Shields where
  read := fun _ => false
  write := fun _ => false

@[simp]
theorem read_none (ref : MemberRef) : none.read ref = false := rfl

@[simp]
theorem write_none (ref : MemberRef) : none.write ref = false := rfl

/-- Every guarded access. -/
def ofGuards (u : Universe) : Shields where
  read := fun ref => (readGetter? u ref).isSome
  write := fun ref => (writeGetter? u ref).isSome

/-- What is not shielded by the others is not shielded. -/
structure Within (sh sh' : Shields) : Prop where
  read : ∀ ref, sh'.read ref = false → sh.read ref = false
  write : ∀ ref, sh'.write ref = false → sh.write ref = false

theorem Within.refl (sh : Shields) : sh.Within sh := ⟨fun _ h => h, fun _ h => h⟩

theorem none_within (sh : Shields) : none.Within sh := ⟨fun _ _ => rfl, fun _ _ => rfl⟩

variable (sh : Shields)

/-- What an expression cannot do without, if shielded reads are blocks. -/
def requiredByExpr : ExprForm → List Part
  | .member (some receiver) ref => if sh.read ref then [] else [.expr receiver]
  | form => Conditional.requiredByExpr form

/-- What a statement cannot do without. The target of an assignment is not read, so it counts by its
    receiver. -/
def requiredByStmt : StmtForm → List Part
  | .assignment ⟨.member (some receiver) ref, _, _⟩ value =>
    if sh.write ref then [] else [.expr receiver, .expr value]
  | form => Conditional.requiredByStmt form

def required : Part → List Part
  | .expr e => sh.requiredByExpr e.form
  | .stmt s => sh.requiredByStmt s.form

theorem requiredByExpr_none (form : ExprForm) :
    none.requiredByExpr form = Conditional.requiredByExpr form := by
  unfold requiredByExpr
  split <;> simp

/-- A member that is called like a constructor and whose reads are not shielded. -/
def namesConstructor (u : Universe) (ref : MemberRef) : Bool :=
  u.isConstructorName ref && !sh.read ref

end Shields

/-! ## Code that is lost -/

/-- Code goes if it is a dead call, or with a part that it requires where nothing is shielded. -/
inductive Lost (dead : Expr → Bool) (sh : Shields) : Part → Prop
  | call {e : Expr} (h : IsDeadCall dead e) : Lost dead sh (.expr e)
  | required {part child : Part} (hc : child ∈ sh.required part) (h : Lost dead sh child) :
      Lost dead sh part

section

variable {dead : Expr → Bool} {sh : Shields}

theorem Lost.iff {part : Part} :
    Lost dead sh part ↔
      (∃ e, part = .expr e ∧ IsDeadCall dead e) ∨
        ∃ child ∈ sh.required part, Lost dead sh child := by
  constructor
  · rintro (h | ⟨hc, h⟩)
    · exact .inl ⟨_, rfl, h⟩
    · exact .inr ⟨_, hc, h⟩
  · rintro (⟨_, rfl, h⟩ | ⟨_, hc, h⟩)
    · exact .call h
    · exact .required hc h

theorem lost_expr {form : ExprForm} {type : Option TypeRef} {source : Option SourceContext} :
    Lost dead sh (.expr ⟨form, type, source⟩) ↔
      (∃ callee arguments, form = .call callee arguments ∧ dead callee = true) ∨
        ∃ child ∈ sh.requiredByExpr form, Lost dead sh child := by
  rw [Lost.iff]
  simp [IsDeadCall, Shields.required]

theorem lost_stmt {form : StmtForm} {source : Option SourceContext} :
    Lost dead sh (.stmt ⟨form, source⟩) ↔ ∃ child ∈ sh.requiredByStmt form, Lost dead sh child := by
  rw [Lost.iff]
  simp [Shields.required]

/-- An assignment to a member of an object needs the object and the value, shielded or not. -/
theorem deleted_assignMember {receiver value : Expr} {ref : MemberRef} {type : Option TypeRef}
    {targetSource source : Option SourceContext} :
    Deleted dead (.stmt ⟨.assignment ⟨.member (some receiver) ref, type, targetSource⟩ value,
      source⟩) ↔ Deleted dead (.expr receiver) ∨ Deleted dead (.expr value) := by
  simp

/-- The member of an object that an expression is. -/
def accessed? (e : Expr) : Option MemberRef :=
  match e.form with
  | .member (some _) ref => some ref
  | _ => Option.none

/-- An assignment that is not shielded needs its target and its value. -/
theorem lost_assignment {target value : Expr} {source : Option SourceContext}
    (h : ∀ ref, accessed? target = some ref → sh.read ref = false ∧ sh.write ref = false) :
    Lost dead sh (.stmt ⟨.assignment target value, source⟩) ↔
      Lost dead sh (.expr target) ∨ Lost dead sh (.expr value) := by
  obtain ⟨form, type, targetSource⟩ := target
  rw [lost_stmt]
  cases form with
  | member receiver ref =>
      cases receiver with
      | none => simp [Shields.requiredByStmt]
      | some receiver =>
          obtain ⟨hread, hwrite⟩ := h ref rfl
          simp [Shields.requiredByStmt, lost_expr, Shields.requiredByExpr, hread, hwrite]
  | _ => simp [Shields.requiredByStmt]

/-- Where nothing is shielded, code is lost if it is deleted. -/
theorem lost_none_iff {part : Part} : Lost dead .none part ↔ Deleted dead part := by
  constructor
  · intro h
    induction h with
    | call h => exact .call h
    | @required part child hc h ih =>
        rcases part with ⟨form, type, source⟩ | ⟨form, source⟩
        · have hchild : child ∈ Shields.requiredByExpr .none form := hc
          rw [Shields.requiredByExpr_none] at hchild
          exact .required hchild ih
        · have hchild : child ∈ Shields.requiredByStmt .none form := hc
          unfold Shields.requiredByStmt at hchild
          split at hchild
          · rename_i receiver ref type targetSource value
            rw [deleted_assignMember]
            have hor : child = .expr receiver ∨ child = .expr value := by simpa using hchild
            rcases hor with rfl | rfl
            · exact .inl ih
            · exact .inr ih
          · exact .required hchild ih
  · intro h
    induction h with
    | call h => exact .call h
    | @required part child hc h ih =>
        rcases part with ⟨form, type, source⟩ | ⟨form, source⟩
        · refine .required ?_ ih
          show child ∈ Shields.requiredByExpr .none form
          rw [Shields.requiredByExpr_none]
          exact hc
        · rw [lost_stmt]
          have hchild : child ∈ Conditional.requiredByStmt form := hc
          unfold Shields.requiredByStmt
          split
          · rename_i receiver ref type targetSource value
            have hor : child = .expr ⟨.member (some receiver) ref, type, targetSource⟩ ∨
                child = .expr value := by simpa using hchild
            rcases hor with rfl | rfl
            · -- a target that goes has lost its receiver
              rw [lost_expr] at ih
              simpa [Shields.requiredByExpr] using Or.inl ih
            · simp [ih]
          · exact ⟨child, hchild, ih⟩

end

/-! ## The first statement that is left -/

/-- Of the statements that are not gone, the first one has the property. -/
def FirstLeft (gone : Stmt → Prop) (p : Stmt → Bool) : List Stmt → Prop
  | [] => False
  | s :: ss => (gone s ∧ FirstLeft gone p ss) ∨ (¬gone s ∧ p s = true)

theorem firstLeft_of_none {gone : Stmt → Prop} (h : ∀ s, ¬gone s) (p : Stmt → Bool)
    (ss : List Stmt) : FirstLeft gone p ss ↔ ss.head?.any p = true := by
  cases ss with
  | nil => simp [FirstLeft]
  | cons s ss => simp [FirstLeft, h s]

/-- The code opens with a chain call once lost statements are out of the way. -/
def OpensBehind (dead : Expr → Bool) (sh : Shields) (u : Universe) (ss : List Stmt) : Prop :=
  FirstLeft (fun s => Lost dead sh (.stmt s)) (Stmt.isChainCall (sh.namesConstructor u)) ss

/-! ## Instrumented code -/

/-- A call of `callee` goes, if calls are eliminated at all. -/
def callGoes (eliminates : Bool) (u : Universe) (symbols : Option SymbolSet) (callee : Expr) :
    Bool :=
  eliminates && isDead u symbols callee

section

variable (u : Universe) (dead : Expr → Bool) (sh : Shields)

/-- Instrumented code goes by the shields that are left as the code went by all guards. -/
structure ExprShielded (e e' : Expr) : Prop where
  dead_eq : dead e' = dead e
  lost_iff : Lost dead sh (.expr e') ↔ Lost dead (.ofGuards u) (.expr e)
  accessed_eq : accessed? e' = none ∨ accessed? e' = accessed? e
  isSelf_eq : e'.isSelf = e.isSelf
  names_eq : e'.namesConstructor (sh.namesConstructor u) =
    e.namesConstructor (Shields.namesConstructor (.ofGuards u) u)
  calls_eq : e'.callsConstructor (sh.namesConstructor u) =
    e.callsConstructor (Shields.namesConstructor (.ofGuards u) u)

structure StmtShielded (st st' : Stmt) : Prop where
  lost_iff : Lost dead sh (.stmt st') ↔ Lost dead (.ofGuards u) (.stmt st)
  chain_eq : st'.isChainCall (sh.namesConstructor u) =
    st.isChainCall (Shields.namesConstructor (.ofGuards u) u)

def shielded : EditRelation Guard.State where
  expr e _ e' _ := ExprShielded u dead sh e e'
  walked e _ e' _ := ExprShielded u dead sh e e'
  option e _ e' _ := (e = none ∧ e' = none) ∨
    ∃ x x', e = some x ∧ e' = some x' ∧ ExprShielded u dead sh x x'
  exprs es _ es' _ := (∃ x ∈ es', Lost dead sh (.expr x)) ↔
    ∃ x ∈ es, Lost dead (.ofGuards u) (.expr x)
  stmt st _ st' _ := StmtShielded u dead sh st st'
  labeled _ _ _ _ := True
  stmts ss _ ss' _ := OpensBehind dead sh u ss' ↔ OpensBehind dead (.ofGuards u) u ss
  catchers _ _ _ _ := True
  last _ _ _ _ := True
  block b _ b' _ := OpensBehind dead sh u b'.statements ↔
    OpensBehind dead (.ofGuards u) u b.statements

end

variable {u : Universe} {eliminates : Bool} {symbols : Option SymbolSet} {sh : Shields}

section

variable {receiver r : Option Expr} {ref : MemberRef} {type : Option TypeRef}
  {targetSource source : Option SourceContext} {s s₁ s' : Guard.State}

theorem shielded_member (hsh : sh.Within (.ofGuards u))
    (hr : (shielded u (callGoes eliminates u symbols) sh).option receiver s r s')
    (hg : readGetter? u ref = none ∨ r = none) :
    ExprShielded u (callGoes eliminates u symbols) sh ⟨.member receiver ref, type, source⟩
      ⟨.member r ref, type, source⟩ := by
  rcases hr with ⟨rfl, rfl⟩ | ⟨x, x', rfl, rfl, hx⟩
  · exact ⟨rfl, by simp [lost_expr, Shields.requiredByExpr], .inl rfl, rfl, rfl, rfl⟩
  · have hread : (Shields.ofGuards u).read ref = false := by
      have hnone : readGetter? u ref = none := hg.resolve_right (Option.some_ne_none x')
      simp [Shields.ofGuards, hnone]
    have hread' : sh.read ref = false := hsh.read ref hread
    refine ⟨rfl, ?_, .inr rfl, rfl, ?_, rfl⟩
    · simp [lost_expr, Shields.requiredByExpr, hread, hread', hx.lost_iff]
    · simp [Expr.namesConstructor, Shields.namesConstructor, hread, hread', hx.isSelf_eq]

/-- Nothing climbs out of the block of a guarded read. -/
theorem shielded_readGroup {w : WellKnown} {temp : LocalId} {e : Expr} {facts : FieldFacts}
    {getter : MemberRef}
    (hr : (shielded u (callGoes eliminates u symbols) sh).option receiver s (some e) s')
    (hf : facts? u ref = some facts) (hg : facts.readGuard = some getter) :
    ExprShielded u (callGoes eliminates u symbols) sh ⟨.member receiver ref, type, source⟩
      (readGroup w temp ⟨.member receiver ref, type, source⟩ e ref facts getter) := by
  have hread : (Shields.ofGuards u).read ref = true := by
    simp [Shields.ofGuards, readGetter?, hf, hg]
  obtain ⟨-, ⟨⟩⟩ | ⟨x, x', rfl, -, -⟩ := hr
  refine ⟨?_, ?_, .inl rfl, rfl, ?_, rfl⟩
  · simp only [callGoes, isDead_field hf]
    rfl
  · simp [lost_expr, readGroup, Shields.requiredByExpr, hread]
  · simp [Expr.namesConstructor, Shields.namesConstructor, hread, readGroup]

/-- A member that is no field is read as it is in any other place. -/
theorem shielded_assignNoField {value t v : Expr} (hsh : sh.Within (.ofGuards u))
    (hf : facts? u ref = none)
    (ht : ExprShielded u (callGoes eliminates u symbols) sh
      ⟨.member receiver ref, type, targetSource⟩ t)
    (hv : ExprShielded u (callGoes eliminates u symbols) sh value v) :
    StmtShielded u (callGoes eliminates u symbols) sh
      ⟨.assignment ⟨.member receiver ref, type, targetSource⟩ value, source⟩
      ⟨.assignment t v, source⟩ := by
  have hopen : (Shields.ofGuards u).read ref = false ∧ (Shields.ofGuards u).write ref = false := by
    simp [Shields.ofGuards, readGetter?, writeGetter?, hf]
  have htarget : ∀ found, accessed? ⟨.member receiver ref, type, targetSource⟩ = some found →
      found = ref := by
    intro found hfound
    cases receiver with
    | none => cases hfound
    | some receiver => exact (Option.some.inj hfound).symm
  refine ⟨?_, rfl⟩
  rw [lost_assignment, lost_assignment, ht.lost_iff, hv.lost_iff]
  · intro found hfound
    rw [htarget found hfound]
    exact hopen
  · intro found hfound
    have hsame : accessed? t = accessed? ⟨.member receiver ref, type, targetSource⟩ :=
      ht.accessed_eq.resolve_left (by rw [hfound]; exact Option.some_ne_none found)
    rw [htarget found (hsame.symm.trans hfound)]
    exact ⟨hsh.read ref hopen.1, hsh.write ref hopen.2⟩

theorem shielded_assignMember {value v : Expr} (hsh : sh.Within (.ofGuards u))
    (hr : (shielded u (callGoes eliminates u symbols) sh).option receiver s r s')
    (hv : ExprShielded u (callGoes eliminates u symbols) sh value v)
    (hg : writeGetter? u ref = none ∨ r = none) :
    StmtShielded u (callGoes eliminates u symbols) sh
      ⟨.assignment ⟨.member receiver ref, type, targetSource⟩ value, source⟩
      ⟨.assignment ⟨.member r ref, type, targetSource⟩ v, source⟩ := by
  refine ⟨?_, rfl⟩
  rw [lost_stmt, lost_stmt]
  rcases hr with ⟨rfl, rfl⟩ | ⟨x, x', rfl, rfl, hx⟩
  · simp [Shields.requiredByStmt, lost_expr, Shields.requiredByExpr, hv.lost_iff]
  · have hwrite : (Shields.ofGuards u).write ref = false := by
      have hnone : writeGetter? u ref = none := hg.resolve_right (Option.some_ne_none x')
      simp [Shields.ofGuards, hnone]
    have hwrite' : sh.write ref = false := hsh.write ref hwrite
    simp [Shields.requiredByStmt, hwrite, hwrite', hx.lost_iff, hv.lost_iff]

/-- Nothing climbs out of the block of a guarded write. -/
theorem shielded_writeGroup {w : WellKnown} {temp valueTemp : LocalId} {value e v : Expr}
    {facts : FieldFacts} {getter : MemberRef}
    (hr : (shielded u (callGoes eliminates u symbols) sh).option receiver s (some e) s')
    (hf : facts? u ref = some facts) (hg : facts.writeGuard = some getter) :
    StmtShielded u (callGoes eliminates u symbols) sh
      ⟨.assignment ⟨.member receiver ref, type, targetSource⟩ value, source⟩
      (writeGroup w temp valueTemp ⟨.member receiver ref, type, targetSource⟩ e v source ref facts
        getter) := by
  have hwrite : (Shields.ofGuards u).write ref = true := by
    simp [Shields.ofGuards, writeGetter?, hf, hg]
  obtain ⟨-, ⟨⟩⟩ | ⟨x, x', rfl, -, -⟩ := hr
  refine ⟨?_, rfl⟩
  rw [lost_stmt]
  simp [writeGroup, lost_stmt, Shields.requiredByStmt, hwrite]

theorem shielded_assign {dead : Expr → Bool} {target value t v : Expr}
    (hm : ∀ receiver ref, target.form ≠ .member receiver ref)
    (ht : ExprShielded u dead sh target t) (hv : ExprShielded u dead sh value v) :
    StmtShielded u dead sh ⟨.assignment target value, source⟩ ⟨.assignment t v, source⟩ := by
  have htarget : accessed? target = none := by
    obtain ⟨form, type, targetSource⟩ := target
    cases form with
    | member receiver ref => exact absurd rfl (hm receiver ref)
    | _ => rfl
  have hnone : accessed? t = none := by
    rcases ht.accessed_eq with h | h
    · exact h
    · exact h.trans htarget
  refine ⟨?_, rfl⟩
  rw [lost_assignment, lost_assignment, ht.lost_iff, hv.lost_iff]
  · rw [htarget]
    exact fun _ h => absurd h.symm (Option.some_ne_none _)
  · rw [hnone]
    exact fun _ h => absurd h.symm (Option.some_ne_none _)

end

theorem shielded_closed (w : WellKnown) (hsh : sh.Within (.ofGuards u)) :
    (shielded u (callGoes eliminates u symbols) sh).Closed (Guard.editor u w) := by
  constructor
  case expr => exact fun h => h
  case member =>
    exact fun h => editMember_yields h (fun _ _ _ hr hg => shielded_member hsh hr hg)
      fun _ _ _ _ _ hr hf hg => shielded_readGroup hr hf hg
  case call =>
    intro callee arguments type source walk h s
    obtain ⟨_, s', run, callee', s₁, arguments', hc, ha, rfl⟩ := h s
    have ha : (∃ x ∈ arguments', Lost _ sh (.expr x)) ↔ ∃ x ∈ arguments, Lost _ _ (.expr x) := ha
    refine ⟨_, s', run, rfl, ?_, .inl rfl, rfl, rfl, hc.names_eq⟩
    simp [lost_expr, Shields.requiredByExpr, hc.dead_eq, hc.lost_iff, ha]
  case assignMember =>
    exact fun ht hv hr => editAssignment_yields ht hv hr
      (fun _ _ _ _ _ hf ht hv => shielded_assignNoField hsh hf ht hv)
      (fun _ _ _ _ _ hr hv _ hg => shielded_assignMember hsh hr hv hg)
      fun _ _ _ _ _ _ _ hr _ hf hg => shielded_writeGroup hr hf hg
  case assign =>
    intro target value source editTarget editValue hm ht hv
    rw [show (Guard.editor u w).assignment = editAssignment u w from rfl, editAssignment_walk hm]
    exact AssignmentParts.walk_yields ht hv fun _ _ _ _ _ => shielded_assign hm
  case leaf =>
    intro form type source s h
    cases form with
    | literal | identifier | thisRef | baseRef | setterValue | typeExpr | typeOf | snippet
    | temporary | missing =>
        exact ⟨rfl, by simp [lost_expr, Shields.requiredByExpr], .inr rfl, rfl, rfl, rfl⟩
    | _ => cases h
  case qualified =>
    intro qualifier name type source s qualifier' s' h
    refine ⟨rfl, ?_, .inl rfl, rfl, ?_, rfl⟩
    · simp [lost_expr, Shields.requiredByExpr, h.lost_iff]
    · simp only [Expr.namesConstructor, h.isSelf_eq]
  case binary =>
    intro op left right type source s left' s₁ right' s' h₁ h₂
    refine ⟨rfl, ?_, .inl rfl, rfl, rfl, rfl⟩
    simp [lost_expr, Shields.requiredByExpr, h₁.lost_iff, h₂.lost_iff]
  case assignment | cast | constructDelegate | addressOf =>
    intros
    rename_i h
    refine ⟨rfl, ?_, .inl rfl, rfl, rfl, rfl⟩
    simp [lost_expr, Shields.requiredByExpr, h.lost_iff]
  case indexer | constructArray =>
    intros
    rename_i h₁ h₂
    refine ⟨rfl, ?_, .inl rfl, rfl, rfl, rfl⟩
    have h₂ : (∃ x ∈ _, Lost _ sh (.expr x)) ↔ ∃ x ∈ _, Lost _ _ (.expr x) := h₂
    simp [lost_expr, Shields.requiredByExpr, h₁.lost_iff, h₂]
  case construct =>
    intro constructed operands type source s operands' s' h
    have h : (∃ x ∈ operands', Lost _ sh (.expr x)) ↔ ∃ x ∈ operands, Lost _ _ (.expr x) := h
    refine ⟨rfl, ?_, .inl rfl, rfl, rfl, rfl⟩
    simp [lost_expr, Shields.requiredByExpr, h]
  case blockExpr =>
    intros
    refine ⟨rfl, ?_, .inl rfl, rfl, rfl, rfl⟩
    simp [lost_expr, Shields.requiredByExpr]
  case optionNone => exact .inl ⟨rfl, rfl⟩
  case optionSome => exact fun h => .inr ⟨_, _, rfl, rfl, h⟩
  case exprsNil =>
    intro s
    exact iff_of_false (by simp) (by simp)
  case exprsCons =>
    intro e es s e' s₁ es' s' h₁ h₂
    have h₂ : (∃ x ∈ es', Lost _ sh (.expr x)) ↔ ∃ x ∈ es, Lost _ _ (.expr x) := h₂
    show (∃ x ∈ e' :: es', Lost _ sh (.expr x)) ↔ ∃ x ∈ e :: es, Lost _ _ (.expr x)
    simp [h₁.lost_iff, h₂]
  case attachEvent | removeEvent =>
    intros
    rename_i h₁ h₂
    refine ⟨?_, rfl⟩
    simp [lost_stmt, Shields.requiredByStmt, h₁.lost_iff, h₂.lost_iff]
  case branch =>
    intro condition whenTrue whenFalse source s condition' s₁ whenTrue' s₂ whenFalse' s' h _ _
    refine ⟨?_, rfl⟩
    simp [lost_stmt, Shields.requiredByStmt, h.lost_iff]
  case expression =>
    intro expression source s expression' s' h
    refine ⟨?_, h.calls_eq⟩
    simp [lost_stmt, Shields.requiredByStmt, h.lost_iff]
  case labeledStmt | loop | ret | raise | protect | declaration | blockStmt | goto | snippet =>
    intros
    refine ⟨?_, rfl⟩
    simp [lost_stmt, Shields.requiredByStmt]
  case labeledNone | labeledSome | catchersNil | catchersCons | lastNone | lastSome =>
    intros
    trivial
  case stmtsNil => exact Iff.rfl
  case stmtsCons =>
    intro st ss s st' s₁ ss' s' h₁ h₂
    exact or_congr (and_congr h₁.lost_iff h₂)
      (and_congr (not_congr h₁.lost_iff) (by rw [h₁.chain_eq]))
  case block => exact fun h => h

/-- What the instrumented body opens with, behind the shields that are left, is what the body opens
    with behind all guards. -/
theorem opensBehind_guarded (w : WellKnown) (hsh : sh.Within (.ofGuards u)) (ref : MemberRef)
    (body : Body) (instrumented : Nat) :
    OpensBehind (callGoes eliminates u symbols) sh u
        (Guard.editBody w u ref body instrumented).body.block.statements ↔
      OpensBehind (callGoes eliminates u symbols) (.ofGuards u) u body.block.statements :=
  (shielded_closed w hsh).editBlock body.block _

/-! ## Eliminated code -/

section

variable (dead : Expr → Bool) (named : MemberRef → Bool)

theorem isSelf_pruneExpr (e : Expr) : (pruneExpr dead e).isSelf = e.isSelf := by
  obtain ⟨form, type, source⟩ := e
  cases form <;> rfl

theorem namesConstructor_pruneExpr (e : Expr) :
    (pruneExpr dead e).namesConstructor named = e.namesConstructor named := by
  obtain ⟨form, type, source⟩ := e
  cases form with
  | qualified qualifier name =>
      simp only [pruneExpr, pruneForm, Expr.namesConstructor, isSelf_pruneExpr]
  | member receiver ref =>
      cases receiver with
      | none => rfl
      | some receiver =>
          simp only [pruneExpr, pruneForm, pruneReceiver, Expr.namesConstructor, isSelf_pruneExpr]
  | _ => rfl

theorem isChainCall_pruneStmt (st : Stmt) :
    (pruneStmt dead st).isChainCall named = st.isChainCall named := by
  obtain ⟨form, source⟩ := st
  cases form with
  | expression e =>
      obtain ⟨form, type, source⟩ := e
      cases form with
      | call callee arguments => exact namesConstructor_pruneExpr dead named callee
      | _ => rfl
  | _ => rfl

theorem statements_keepBlock (block : Block) :
    (keepBlock dead block).statements = keepStmts dead block.statements := by
  obtain ⟨statements, source⟩ := block
  rfl

/-- Once deleted statements are out, the first one is the first that was left. -/
theorem head_keepStmts (ss : List Stmt) :
    (keepStmts dead ss).head?.any (Stmt.isChainCall named) = true ↔
      FirstLeft (fun s => Deleted dead (.stmt s)) (Stmt.isChainCall named) ss := by
  rw [keepStmts_eq]
  induction ss with
  | nil => simp [FirstLeft, pruneStmts]
  | cons s ss ih =>
      by_cases hs : Deleted dead (.stmt s)
      · rw [pruneStmts, if_pos hs, ih, FirstLeft]
        simp only [hs, true_and, not_true_eq_false, false_and, or_false]
      · rw [pruneStmts, if_neg hs, FirstLeft]
        simp only [hs, false_and, false_or, not_false_eq_true, true_and, List.head?_cons,
          Option.any_some, isChainCall_pruneStmt]

end

theorem namesConstructor_none (u : Universe) :
    Shields.namesConstructor .none u = u.isConstructorName := by
  funext ref
  simp [Shields.namesConstructor]

/-- Without shields, the body opens behind what goes as it does once that is eliminated. -/
theorem opens_eliminated (u : Universe) (symbols : Option SymbolSet) (ref : MemberRef) (body : Body)
    (state : Conditional.State) (hs : state.symbols = symbols) :
    (Conditional.editBody u ref body state).body.opens u.isConstructorName = true ↔
      OpensBehind (callGoes true u symbols) .none u body.block.statements := by
  have hdead : callGoes true u symbols = isDead u symbols := by
    funext callee
    rw [callGoes, Bool.true_and]
  have hlost : (fun s => Lost (callGoes true u symbols) .none (.stmt s)) =
      fun s => Deleted (isDead u symbols) (.stmt s) := by
    funext s
    rw [hdead]
    exact propext lost_none_iff
  unfold OpensBehind Body.opens
  rw [editBody_block, hs, hlost, namesConstructor_none, ← head_keepStmts, statements_keepBlock]

/-- Where no calls go, nothing is lost. -/
theorem opens_iff_opensBehind (u : Universe) (symbols : Option SymbolSet) (body : Body) :
    body.opens u.isConstructorName = true ↔
      OpensBehind (callGoes false u symbols) .none u body.block.statements := by
  have hnone : ∀ part, ¬Lost (callGoes false u symbols) .none part := by
    intro part h
    induction h with
    | call h =>
        obtain ⟨callee, arguments, -, hdead⟩ := h
        cases hdead
    | required _ _ ih => exact ih
  unfold OpensBehind
  rw [firstLeft_of_none fun s => hnone (.stmt s), namesConstructor_none]
  rfl

end Pipeline

end MiddleEnd
