/-
  Places under instrumentation. An address is taken of a place, and an assignment goes to one; a
  block has a value, but it is no place. Instrumentation puts a block where a guarded field is
  read. It does not read the target of an assignment, so what is assigned to stays a place. It does
  read the operand of an address, and there a guarded field is lost as a place: code whose places
  were in order keeps them exactly if no address is taken of a guarded field
  (`addressable_editBody_iff`).
-/
import MiddleEnd.Proofs.Code.Usage
import MiddleEnd.Proofs.Guard.Counting

namespace MiddleEnd

def Expr.isBlock (e : Expr) : Bool :=
  match e.form with
  | .block _ => true
  | _ => false

/-- What the address is taken of. -/
def ExprForm.addressed? : ExprForm → Option Expr
  | .addressOf operand => some operand
  | _ => none

def StmtForm.target? : StmtForm → Option Expr
  | .assignment target _ => some target
  | _ => none

/-- What the expressions take the address of. -/
def addressed (es : List Expr) : List Expr := es.filterMap (·.form.addressed?)

/-- What the statements assign to. -/
def targets (ss : List Stmt) : List Expr := ss.filterMap (·.form.target?)

@[simp]
theorem addressed_nil : addressed [] = [] := rfl

@[simp]
theorem addressed_cons (e : Expr) (es : List Expr) :
    addressed (e :: es) = e.form.addressed?.toList ++ addressed es :=
  filterMap_cons_toList _ e es

@[simp]
theorem addressed_append (es fs : List Expr) :
    addressed (es ++ fs) = addressed es ++ addressed fs :=
  List.filterMap_append

@[simp]
theorem targets_nil : targets [] = [] := rfl

@[simp]
theorem targets_cons (s : Stmt) (ss : List Stmt) :
    targets (s :: ss) = s.form.target?.toList ++ targets ss :=
  filterMap_cons_toList _ s ss

@[simp]
theorem targets_append (ss ts : List Stmt) : targets (ss ++ ts) = targets ss ++ targets ts :=
  List.filterMap_append

/-- Outside types, no address is taken of a block and nothing is assigned to one. -/
def Block.Addressable (b : Block) : Prop :=
  (∀ e ∈ addressed (b.exprs false), e.isBlock = false) ∧ ∀ e ∈ targets b.stmts, e.isBlock = false

instance (b : Block) : Decidable b.Addressable :=
  inferInstanceAs (Decidable ((∀ e ∈ addressed (b.exprs false), e.isBlock = false) ∧
    ∀ e ∈ targets b.stmts, e.isBlock = false))

namespace Guard

/-- The expression is a guarded field of some object. -/
def ReadsGuarded (u : Universe) (e : Expr) : Prop :=
  ∃ receiver ref getter, e.form = .member (some receiver) ref ∧ GuardedBy u ref getter

/-- The expression is a block behind instrumentation. -/
def becomesBlock (u : Universe) (e : Expr) : Bool :=
  match e.form with
  | .block _ => true
  | .member (some _) ref => (readGetter? u ref).isSome
  | _ => false

theorem becomesBlock_eq_false_iff {u : Universe} {e : Expr} :
    becomesBlock u e = false ↔ e.isBlock = false ∧ ¬ ReadsGuarded u e := by
  obtain ⟨form, type, source⟩ := e
  cases form with
  | block block => simp [becomesBlock, Expr.isBlock]
  | member receiver ref =>
      cases receiver with
      | none => simp [becomesBlock, Expr.isBlock, ReadsGuarded]
      | some receiver =>
          have hreads : ReadsGuarded u ⟨.member (some receiver) ref, type, source⟩ ↔
              ∃ getter, GuardedBy u ref getter := by
            constructor
            · rintro ⟨_, _, getter, ⟨⟩, hg⟩
              exact ⟨getter, hg⟩
            · rintro ⟨getter, hg⟩
              exact ⟨receiver, ref, getter, rfl, hg⟩
          rw [hreads, exists_guardedBy_iff]
          simp [becomesBlock, Expr.isBlock]
  | _ => simp [becomesBlock, Expr.isBlock, ReadsGuarded]

/-! ## Instrumentation step by step -/

/-- An address is taken of a block exactly where it was taken of what becomes one, and a block is
    assigned to exactly where one was. -/
structure KeepsPlaces (u : Universe) (es es' : List Expr) (ss ss' : List Stmt) : Prop where
  operands : (addressed es').any Expr.isBlock = (addressed es).any (becomesBlock u)
  assigned : (targets ss').any Expr.isBlock = (targets ss).any Expr.isBlock

namespace KeepsPlaces

variable {u : Universe} {es es' fs fs' : List Expr} {ss ss' ts ts' : List Stmt}

theorem nil : KeepsPlaces u [] [] [] [] := ⟨rfl, rfl⟩

theorem append (h : KeepsPlaces u es es' ss ss') (hf : KeepsPlaces u fs fs' ts ts') :
    KeepsPlaces u (es ++ fs) (es' ++ fs') (ss ++ ts) (ss' ++ ts') := by
  constructor
  · rw [addressed_append, addressed_append, List.any_append, List.any_append, h.operands,
      hf.operands]
  · rw [targets_append, targets_append, List.any_append, List.any_append, h.assigned, hf.assigned]

/-- A mentioned type holds no places. -/
theorem mentioned (type : TypeRef) :
    KeepsPlaces u (type.exprs false) (type.exprs false) [] [] := by
  rw [type.exprs_false]
  exact nil

/-- An expression that is no address. -/
theorem node {form form' : ExprForm} {type type' : Option TypeRef}
    {source source' : Option SourceContext} (hf : form.addressed? = none)
    (hf' : form'.addressed? = none)
    (h : KeepsPlaces u (form.exprs false) (form'.exprs false) ss ss') :
    KeepsPlaces u (Expr.exprs false ⟨form, type, source⟩) (Expr.exprs false ⟨form', type', source'⟩)
      ss ss' := by
  refine ⟨?_, h.assigned⟩
  simp only [Expr.exprs, typeExprs_false, List.append_nil, addressed_cons, hf, hf']
  exact h.operands

/-- An address is taken of a block now if its operand becomes one. -/
theorem addressOf {operand operand' : Expr} {type : Option TypeRef} {source : Option SourceContext}
    (hb : operand'.isBlock = becomesBlock u operand)
    (h : KeepsPlaces u (operand.exprs false) (operand'.exprs false) ss ss') :
    KeepsPlaces u (Expr.exprs false ⟨.addressOf operand, type, source⟩)
      (Expr.exprs false ⟨.addressOf operand', type, source⟩) ss ss' := by
  refine ⟨?_, h.assigned⟩
  have hnode (operand : Expr) : addressed (Expr.exprs false ⟨.addressOf operand, type, source⟩) =
      operand :: addressed (operand.exprs false) := by
    simp [ExprForm.addressed?]
  rw [hnode, hnode, List.any_cons, List.any_cons, hb, h.operands]

/-- A statement that is no assignment. -/
theorem stmt {form form' : StmtForm} {source source' : Option SourceContext}
    (hf : form.target? = none) (hf' : form'.target? = none)
    (h : KeepsPlaces u es es' form.stmts form'.stmts) :
    KeepsPlaces u es es' (Stmt.stmts ⟨form, source⟩) (Stmt.stmts ⟨form', source'⟩) := by
  refine ⟨h.operands, ?_⟩
  simp only [Stmt.stmts, targets_cons, hf, hf']
  exact h.assigned

theorem assign {target target' value value' : Expr} {source : Option SourceContext}
    (hb : target'.isBlock = target.isBlock)
    (ht : KeepsPlaces u (target.exprs false) (target'.exprs false) target.stmts target'.stmts)
    (hv : KeepsPlaces u (value.exprs false) (value'.exprs false) value.stmts value'.stmts) :
    KeepsPlaces u (Stmt.exprs false ⟨.assignment target value, source⟩)
      (Stmt.exprs false ⟨.assignment target' value', source⟩)
      (Stmt.stmts ⟨.assignment target value, source⟩)
      (Stmt.stmts ⟨.assignment target' value', source⟩) := by
  have hboth := ht.append hv
  refine ⟨hboth.operands, ?_⟩
  show (target' :: targets (target'.stmts ++ value'.stmts)).any _ =
    (target :: targets (target.stmts ++ value.stmts)).any _
  rw [List.any_cons, List.any_cons, hb, hboth.assigned]

/-- A guarded read has the places of its receiver. -/
theorem readGroup {receiver receiver' e : Expr} {type : Option TypeRef}
    {source : Option SourceContext} {w : WellKnown} {id : LocalId} {ref getter : MemberRef}
    {facts : FieldFacts}
    (h : KeepsPlaces u (receiver.exprs false) (receiver'.exprs false) receiver.stmts
      receiver'.stmts) :
    KeepsPlaces u (Expr.exprs false ⟨.member (some receiver) ref, type, source⟩)
      ((readGroup w id e receiver' ref facts getter).exprs false)
      (Expr.stmts ⟨.member (some receiver) ref, type, source⟩)
      (readGroup w id e receiver' ref facts getter).stmts := by
  constructor
  · simpa [Guard.readGroup, tempFor, checkStmt, Stmt.assignment, Stmt.expression, ExprForm.expr,
      ExprForm.addressed?] using h.operands
  · simpa [Guard.readGroup, tempFor, checkStmt, Stmt.assignment, Stmt.expression, ExprForm.expr,
      StmtForm.target?, Expr.isBlock] using h.assigned

/-- A guarded write has the places of its receiver and its value, and assigns to no block. -/
theorem writeGroup {receiver value receiver' value' : Expr} {type : Option TypeRef}
    {targetSource source : Option SourceContext} {w : WellKnown} {id valueId : LocalId}
    {target : Expr} {ref getter : MemberRef} {facts : FieldFacts}
    (hr : KeepsPlaces u (receiver.exprs false) (receiver'.exprs false) receiver.stmts
      receiver'.stmts)
    (hv : KeepsPlaces u (value.exprs false) (value'.exprs false) value.stmts value'.stmts) :
    let assignment : Stmt :=
      ⟨.assignment ⟨.member (some receiver) ref, type, targetSource⟩ value, source⟩
    let group := writeGroup w id valueId target receiver' value' source ref facts getter
    KeepsPlaces u (assignment.exprs false) (group.exprs false) assignment.stmts group.stmts := by
  have hboth := hr.append hv
  constructor
  · simpa [Guard.writeGroup, tempFor, checkStmt, Stmt.assignment, Stmt.expression, ExprForm.expr,
      ExprForm.addressed?] using hboth.operands
  · simpa [Guard.writeGroup, tempFor, checkStmt, Stmt.assignment, Stmt.expression, ExprForm.expr,
      StmtForm.target?, Expr.isBlock] using hboth.assigned

end KeepsPlaces

/-- What becomes of expressions, and what becomes of the places in them. -/
def places (u : Universe) : EditRelation State where
  expr e _ e' _ := e'.isBlock = becomesBlock u e ∧
    KeepsPlaces u (e.exprs false) (e'.exprs false) e.stmts e'.stmts
  walked e _ e' _ := e'.isBlock = becomesBlock u e ∧
    KeepsPlaces u (e.exprs false) (e'.exprs false) e.stmts e'.stmts
  option e _ e' _ := e'.isSome = e.isSome ∧
    KeepsPlaces u (optionExprs false e) (optionExprs false e') (optionStmts e) (optionStmts e')
  exprs es _ es' _ :=
    KeepsPlaces u (exprsExprs false es) (exprsExprs false es') (exprsStmts es) (exprsStmts es')
  stmt st _ st' _ := KeepsPlaces u (st.exprs false) (st'.exprs false) st.stmts st'.stmts
  labeled st _ st' _ := KeepsPlaces u (labeledExprs false st) (labeledExprs false st')
    (labeledStmts st) (labeledStmts st')
  stmts ss _ ss' _ :=
    KeepsPlaces u (stmtsExprs false ss) (stmtsExprs false ss') (stmtsStmts ss) (stmtsStmts ss')
  catchers cs _ cs' _ := KeepsPlaces u (catchersExprs false cs) (catchersExprs false cs')
    (catchersStmts cs) (catchersStmts cs')
  last b _ b' _ :=
    KeepsPlaces u (lastExprs false b) (lastExprs false b') (lastStmts b) (lastStmts b')
  block b _ b' _ := KeepsPlaces u (b.exprs false) (b'.exprs false) b.stmts b'.stmts

theorem places_closed (u : Universe) (w : WellKnown) : (places u).Closed (editor u w) := by
  constructor
  case expr => exact fun h => h
  case member =>
    intro receiver ref type source edit hr
    refine editMember_yields hr (fun s r s' hr hn => ?_) (fun s r s' facts getter hr hf hg => ?_)
    · obtain ⟨hsome, hr⟩ := hr
      refine ⟨?_, .node rfl rfl hr⟩
      cases receiver with
      | none => rfl
      | some receiver =>
          have hn : readGetter? u ref = none := hn.resolve_right fun h => by
            rw [h] at hsome
            cases hsome
          simp [becomesBlock, hn, Expr.isBlock]
    · obtain ⟨hsome, hr⟩ := hr
      obtain ⟨receiver, rfl⟩ := Option.isSome_iff_exists.mp hsome.symm
      have hget : readGetter? u ref = some getter := by rw [readGetter?, hf]; exact hg
      refine ⟨?_, .readGroup hr⟩
      simp [becomesBlock, hget, Expr.isBlock, readGroup]
  case call =>
    intro callee arguments type source walk h s
    obtain ⟨_, s', run, callee', s₁, arguments', hc, ha, rfl⟩ := h s
    exact ⟨_, s', run, rfl, .node rfl rfl (hc.2.append ha)⟩
  case assignMember =>
    intro receiver ref type targetSource source value editTarget editValue editReceiver ht hv hr
    refine editAssignment_yields ht hv hr (fun s t s₁ v s' hf ht hv => ?_)
      (fun s r s₁ v s' hr hv _ _ => ?_) (fun s r s₁ v s' facts getter hr hv hf hg => ?_)
    · -- what is no field is not guarded, so the target is as little a block as before
      obtain ⟨hb, ht⟩ := ht
      refine .assign ?_ ht hv.2
      rw [hb]
      cases receiver with
      | none => rfl
      | some receiver => simp [becomesBlock, readGetter?, hf, Expr.isBlock]
    · exact .assign rfl (.node rfl rfl hr.2) hv.2
    · obtain ⟨hsome, hr⟩ := hr
      obtain ⟨receiver, rfl⟩ := Option.isSome_iff_exists.mp hsome.symm
      exact .writeGroup hr hv.2
  case assign =>
    intro target value source editTarget editValue hm ht hv
    rw [show (editor u w).assignment = editAssignment u w from rfl, editAssignment_walk hm]
    refine AssignmentParts.walk_yields ht hv fun s t s₁ v s' ht hv => .assign ?_ ht.2 hv.2
    rw [ht.1]
    obtain ⟨form, type, targetSource⟩ := target
    cases form with
    | member receiver ref => exact absurd rfl (hm receiver ref)
    | _ => rfl
  case leaf =>
    intro form type source s h
    have hexprs : form.exprs false = [] := ExprForm.exprs_leaf h
    have hstmts : form.stmts = [] := by cases form <;> simp_all [ExprForm.isLeaf]
    have hform : form.addressed? = none := by
      cases form with
      | addressOf => cases h
      | _ => rfl
    refine ⟨?_, .node hform hform ?_⟩
    · cases form with
      | block | member => cases h
      | _ => rfl
    · rw [hexprs, Expr.stmts, hstmts]
      exact .nil
  case addressOf => exact fun h => ⟨rfl, .addressOf h.1 h.2⟩
  case qualified => exact fun h => ⟨rfl, .node rfl rfl h.2⟩
  case assignment | blockExpr => exact fun h => ⟨rfl, .node rfl rfl h⟩
  case binary => exact fun h₁ h₂ => ⟨rfl, .node rfl rfl (h₁.2.append h₂.2)⟩
  case indexer => exact fun h₁ h₂ => ⟨rfl, .node rfl rfl (h₁.2.append h₂)⟩
  case cast =>
    intro operand target type source s operand' s' h
    have hparts := h.2.append (.mentioned target)
    rw [List.append_nil, List.append_nil] at hparts
    exact ⟨rfl, .node rfl rfl hparts⟩
  case constructArray =>
    exact fun h₁ h₂ => ⟨rfl, .node rfl rfl (((KeepsPlaces.mentioned _).append h₁.2).append h₂)⟩
  case construct => exact fun h => ⟨rfl, .node rfl rfl ((KeepsPlaces.mentioned _).append h)⟩
  case constructDelegate =>
    exact fun h => ⟨rfl, .node rfl rfl ((KeepsPlaces.mentioned _).append h.2)⟩
  case exprsCons => exact fun h₁ h₂ => h₁.2.append h₂
  case stmtsCons => exact fun h₁ h₂ => h₁.append h₂
  case catchersCons =>
    intro type name block cs s block' s₁ cs' s' h₁ h₂
    have hparts := h₁.append h₂
    simpa [places] using hparts
  case attachEvent | removeEvent => exact fun h₁ h₂ => .stmt rfl rfl (h₁.2.append h₂.2)
  case branch => exact fun h₁ h₂ h₃ => .stmt rfl rfl ((h₁.2.append h₂).append h₃)
  case protect => exact fun h₁ h₂ h₃ => .stmt rfl rfl ((h₁.append h₂).append h₃)
  case loop => exact fun h₁ h₂ h₃ h₄ => .stmt rfl rfl (((h₁.append h₂.2).append h₃).append h₄)
  case declaration => exact fun h => .stmt rfl rfl ((KeepsPlaces.mentioned _).append h.2)
  case ret | raise | expression => exact fun h => .stmt rfl rfl h.2
  case labeledStmt | blockStmt => exact fun h => .stmt rfl rfl h
  case goto | snippet => exact .stmt rfl rfl .nil
  case optionNone => exact ⟨rfl, .nil⟩
  case optionSome => exact fun h => ⟨rfl, h.2⟩
  case labeledSome | lastSome | block => exact fun h => h
  case exprsNil | labeledNone | stmtsNil | catchersNil | lastNone => exact .nil

/-- An instrumented body has its places in order exactly if the body had, and took no address of a
    guarded field. -/
theorem addressable_editBody_iff (w : WellKnown) (u : Universe) (method : MemberRef) (body : Body)
    (instrumented : Nat) :
    (editBody w u method body instrumented).body.block.Addressable ↔
      body.block.Addressable ∧
        ∀ operand ∈ addressed (body.block.exprs false), ¬ ReadsGuarded u operand := by
  have hkeeps := (places_closed u w).editBlock body.block { tempCount := body.tempCount }
  have hoperands := congrArg (· = false) hkeeps.operands
  have htargets := congrArg (· = false) hkeeps.assigned
  simp only [List.any_eq_false, Bool.not_eq_true, eq_iff_iff] at hoperands htargets
  have hblock : (editBody w u method body instrumented).body.block =
      ((editor u w).editBlock body.block { tempCount := body.tempCount }).1 := rfl
  unfold Block.Addressable
  rw [hblock, hoperands, htargets]
  simp only [becomesBlock_eq_false_iff, forall_and]
  exact and_right_comm

/-- `Fill(&this.coins)` -/
def fillCoins : Body where
  block := { statements := [.expression (ExprForm.call (ExprForm.identifier "Fill").expr
    [(ExprForm.addressOf (Wallet.coinsOf Wallet.self)).expr]).expr] }

/-- Behind instrumentation the address is that of a block. -/
theorem not_addressable_fillCoins :
    let edited := editBody Wallet.checks Wallet.types Wallet.spare fillCoins 0
    fillCoins.block.Addressable ∧ edited.failure = none ∧ edited.breakOff = none ∧
    edited.state = 1 ∧ ¬ edited.body.block.Addressable := by
  decide

end Guard

end MiddleEnd
