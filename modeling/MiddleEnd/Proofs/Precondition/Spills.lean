/-
  Values of temporaries. To resolve an expression is to put the values of temporaries in their
  place: an expression that uses no temporary resolves to itself (`resolve_of_noTemporaries`), and
  one that uses a temporary of unknown value, be it as the target of an assignment, does not
  resolve at all (`resolve_of_missing`).
-/
import MiddleEnd.Pass.Precondition
import MiddleEnd.Proofs.Code.Editing
import MiddleEnd.Proofs.Code.Occurrence

namespace MiddleEnd.Spills

variable {s : Spills}

/-! ## Entries -/

theorem get?_insert_self (id : LocalId) (value : Expr) : (s.insert id value).get? id = some value :=
  List.lookup_cons_self

theorem get?_insert_of_ne {id id' : LocalId} (value : Expr) (h : id' ≠ id) :
    (s.insert id value).get? id' = s.get? id' := by
  have hb : (id' == id) = false := beq_false_of_ne h
  rw [get?, insert, List.lookup_cons, hb]
  rfl

theorem get?_erase_self (id : LocalId) : (s.erase id).get? id = none := by
  rw [get?, erase, List.lookup_eq_none_iff]
  intro entry hentry
  have hne : (entry.1 != id) = true := (List.mem_filter.mp hentry).2
  have hkey : entry.1 ≠ id := by simpa using hne
  simpa using hkey.symm

theorem get?_erase_of_ne {id id' : LocalId} (h : id' ≠ id) :
    (s.erase id).get? id' = s.get? id' := by
  obtain ⟨entries⟩ := s
  show (entries.filter _).lookup id' = entries.lookup id'
  induction entries with
  | nil => rfl
  | cons entry entries ih =>
      obtain ⟨key, value⟩ := entry
      by_cases hkey : key = id
      · subst hkey
        have hb : (id' == key) = false := beq_false_of_ne h
        rw [List.filter_cons_of_neg (by simp), ih, List.lookup_cons, hb]
      · rw [List.filter_cons_of_pos (by simpa using hkey), List.lookup_cons, List.lookup_cons, ih]

/-! ## Resolving -/

/-- One of the expressions is a temporary of unknown value. -/
def Missing (s : Spills) (es : List Expr) : Prop :=
  ∃ e ∈ es, ∃ id, e.temporary? = some id ∧ s.get? id = none

@[simp]
theorem missing_nil : ¬s.Missing [] := by simp [Missing]

@[simp]
theorem missing_cons {e : Expr} {es : List Expr} :
    s.Missing (e :: es) ↔ (∃ id, e.temporary? = some id ∧ s.get? id = none) ∨ s.Missing es := by
  simp only [Missing, List.mem_cons, or_and_right, exists_or, exists_eq_left]

@[simp]
theorem missing_append {es fs : List Expr} :
    s.Missing (es ++ fs) ↔ s.Missing es ∨ s.Missing fs := by
  simp only [Missing, List.mem_append, or_and_right, exists_or]

/-- What becomes of code with the expressions `es`: it stays if it uses no temporary, and what is
    missing is noticed. -/
structure Resolves (s : Spills) (es : List Expr) (same : Prop) (before after : Bool) : Prop where
  mono : before = true → after = true
  same : NoTemporaries es → same ∧ after = before
  missing : s.Missing es → after = true

/-- The values put in place of temporaries, for each class of code. -/
def resolution (s : Spills) : EditRelation Bool where
  expr e b e' b' := s.Resolves (e.exprs false) (e' = e) b b'
  walked e b e' b' := e.temporary? = none → s.Resolves (e.exprs false) (e' = e) b b'
  option e b e' b' := s.Resolves (optionExprs false e) (e' = e) b b'
  exprs es b es' b' := s.Resolves (exprsExprs false es) (es' = es) b b'
  stmt st b st' b' := s.Resolves (st.exprs false) (st' = st) b b'
  labeled st b st' b' := s.Resolves (labeledExprs false st) (st' = st) b b'
  stmts ss b ss' b' := s.Resolves (stmtsExprs false ss) (ss' = ss) b b'
  catchers cs b cs' b' := s.Resolves (catchersExprs false cs) (cs' = cs) b b'
  last block b block' b' := s.Resolves (lastExprs false block) (block' = block) b b'
  block block b block' b' := s.Resolves (block.exprs false) (block' = block) b b'

namespace Resolves

variable {es fs : List Expr} {p q : Prop} {b b₁ b' : Bool}

theorem nil (hp : p) : s.Resolves [] p b b :=
  ⟨fun h => h, fun _ => ⟨hp, rfl⟩, fun h => absurd h missing_nil⟩

theorem append (hes : s.Resolves es p b b₁) (hfs : s.Resolves fs q b₁ b') :
    s.Resolves (es ++ fs) (p ∧ q) b b' where
  mono := fun h => hfs.mono (hes.mono h)
  same := fun h => by
    obtain ⟨hn, hm⟩ := noTemporaries_append.mp h
    obtain ⟨hp, rfl⟩ := hes.same hn
    obtain ⟨hq, rfl⟩ := hfs.same hm
    exact ⟨⟨hp, hq⟩, rfl⟩
  missing := fun h => by
    rcases missing_append.mp h with h | h
    · exact hfs.mono (hes.missing h)
    · exact hfs.missing h

theorem imp (h : s.Resolves es p b b') (hpq : p → q) : s.Resolves es q b b' :=
  ⟨h.mono, fun hn => (h.same hn).imp_left hpq, h.missing⟩

/-- A node that is no temporary, by its parts. -/
theorem node {form : ExprForm} {type : Option TypeRef} {source : Option SourceContext}
    (h : s.Resolves es p b b') (hes : form.exprs false = es)
    (ht : (⟨form, type, source⟩ : Expr).temporary? = none) (hpq : p → q) :
    s.Resolves (Expr.exprs false ⟨form, type, source⟩) q b b' := by
  rw [Expr.exprs, typeExprs_false, List.append_nil, hes]
  refine ⟨h.mono, fun hn => ?_, fun hm => ?_⟩
  · exact (h.same (noTemporaries_cons.mp hn).2).imp_left hpq
  · rcases missing_cons.mp hm with ⟨id, hid, -⟩ | hm
    · rw [ht] at hid
      cases hid
    · exact h.missing hm

end Resolves

/-- A temporary of known value is replaced by it. -/
theorem editor_of_known {id : LocalId} {value : Expr} (h : s.get? id = some value)
    (type : Option TypeRef) (source : Option SourceContext) (walk : Edit Bool Expr) :
    s.editor.expr ⟨.temporary id, type, source⟩ walk = pure value := by
  simp only [editor, h]

/-- A temporary of unknown value stays, and is noticed. -/
theorem editor_of_unknown {id : LocalId} (h : s.get? id = none) (type : Option TypeRef)
    (source : Option SourceContext) (walk : Edit Bool Expr) (b : Bool) :
    s.editor.expr ⟨.temporary id, type, source⟩ walk b =
      (some ⟨.temporary id, type, source⟩, true) := by
  simp only [editor, h]
  rfl

theorem resolution_closed (s : Spills) : s.resolution.Closed s.editor := by
  constructor
  case expr =>
    intro e walk h
    obtain ⟨form, type, source⟩ := e
    cases form
    case temporary id =>
      intro b
      have hexprs : Expr.exprs false ⟨.temporary id, type, source⟩ =
          [⟨.temporary id, type, source⟩] := by simp
      have hsome : ¬NoTemporaries (Expr.exprs false ⟨.temporary id, type, source⟩) := fun hn =>
        absurd (noTemporaries_cons.mp hn).1 (by simp [Expr.temporary?])
      rcases hid : s.get? id with _ | value
      · exact ⟨_, true, editor_of_unknown hid type source walk b, fun _ => rfl,
          fun hn => absurd hn hsome, fun _ => rfl⟩
      · refine ⟨value, b, congrFun (editor_of_known hid type source walk) b, fun hb => hb,
          fun hn => absurd hn hsome, fun hm => ?_⟩
        rw [hexprs] at hm
        simp [Expr.temporary?, hid] at hm
    all_goals
      intro b
      obtain ⟨e', b', run, hr⟩ := h b
      exact ⟨e', b', run, hr rfl⟩
  case member =>
    intro receiver ref type source edit h b
    obtain ⟨receiver', b', run, hr⟩ := h b
    exact ⟨_, b', Edit.bind_run run _, fun ht => hr.node rfl ht fun h => by rw [h]⟩
  case call =>
    intro callee arguments type source walk h b
    obtain ⟨_, b', run, callee', b₁, arguments', hc, ha, rfl⟩ := h b
    exact ⟨_, b', run, fun ht => (hc.append ha).node rfl ht fun h => by rw [h.1, h.2]⟩
  case assignMember =>
    intro receiver ref type targetSource source value editTarget editValue editReceiver ht hv hr
    exact AssignmentParts.walk_yields ht hv fun b t b₁ v b' ht hv =>
      (ht.append hv).imp fun h => by rw [h.1, h.2]
  case assign =>
    intro target value source editTarget editValue hm ht hv
    exact AssignmentParts.walk_yields ht hv fun b t b₁ v b' ht hv =>
      (ht.append hv).imp fun h => by rw [h.1, h.2]
  case leaf =>
    intro form type source b h ht
    have hes : form.exprs false = [] := ExprForm.exprs_leaf h
    exact Resolves.node (.nil trivial) hes ht fun _ => rfl
  case qualified =>
    intro _ _ _ _ _ _ _ hq ht
    exact hq.node rfl ht fun h => by rw [h]
  case binary =>
    intro _ _ _ _ _ _ _ _ _ _ hl hr ht
    exact (hl.append hr).node rfl ht fun h => by rw [h.1, h.2]
  case assignment =>
    intro _ _ _ _ _ _ hs ht
    exact hs.node rfl ht fun h => by rw [h]
  case cast =>
    intro _ _ _ _ _ _ _ ho ht
    exact ho.node (by simp) ht fun h => by rw [h]
  case indexer =>
    intro _ _ _ _ _ _ _ _ _ ho hs ht
    exact (ho.append hs).node rfl ht fun h => by rw [h.1, h.2]
  case constructArray =>
    intro _ _ _ _ _ _ _ _ _ _ hs hi ht
    exact (hs.append hi).node (by simp) ht fun h => by rw [h.1, h.2]
  case construct =>
    intro _ _ _ _ _ _ _ ho ht
    exact ho.node (by simp) ht fun h => by rw [h]
  case constructDelegate =>
    intro _ _ _ _ _ _ _ _ ho ht
    exact ho.node (by simp) ht fun h => by rw [h]
  case addressOf =>
    intro _ _ _ _ _ _ ho ht
    exact ho.node rfl ht fun h => by rw [h]
  case blockExpr =>
    intro _ _ _ _ _ _ hb ht
    exact hb.node rfl ht fun h => by rw [h]
  case branch =>
    intro _ _ _ _ _ _ _ _ _ _ _ hc ht hf
    exact ((hc.append ht).append hf).imp fun h => by rw [h.1.1, h.1.2, h.2]
  case loop =>
    intro _ _ _ _ _ _ _ _ _ _ _ _ _ _ hi ht hs hb
    exact (((hi.append ht).append hs).append hb).imp fun h => by rw [h.1.1.1, h.1.1.2, h.1.2, h.2]
  case protect =>
    intro _ _ _ _ _ _ _ _ _ _ _ hb hc hl
    exact ((hb.append hc).append hl).imp fun h => by rw [h.1.1, h.1.2, h.2]
  case attachEvent | removeEvent | exprsCons | stmtsCons =>
    intros
    rename_i h h'
    exact (h.append h').imp fun h => by rw [h.1, h.2]
  case catchersCons =>
    intro type name block cs b block' b₁ cs' b' hb hc
    have hblock : s.Resolves (typeExprs false type ++ block.exprs false) (block' = block) b b₁ := by
      rwa [typeExprs_false, List.nil_append]
    exact (hblock.append hc).imp fun h => by rw [h.1, h.2]
  case declaration =>
    intro name type init source b init' b' hi
    have hinit : s.Resolves (type.exprs false ++ optionExprs false init) (init' = init) b b' := by
      rwa [TypeRef.exprs_false, List.nil_append]
    exact hinit.imp fun h => by rw [h]
  case optionNone | exprsNil | goto | snippet | labeledNone | stmtsNil | catchersNil | lastNone =>
    intros
    exact .nil rfl
  all_goals
    intros
    rename_i h
    exact h.imp fun h => by rw [h]

/-- An expression without temporaries is known as it stands. -/
theorem resolve_of_noTemporaries {e : Expr} (h : NoTemporaries (e.exprs false)) :
    s.resolve e = some e := by
  obtain ⟨e', b', run, hr⟩ := s.resolution_closed.editExpr e false
  obtain ⟨rfl, rfl⟩ := hr.same h
  rw [resolve, show (s.editor.editExpr e').run false = (some e', false) from run]

/-- One unknown temporary makes the whole expression unknown. -/
theorem resolve_of_missing {e : Expr} (h : s.Missing (e.exprs false)) : s.resolve e = none := by
  obtain ⟨e', b', run, hr⟩ := s.resolution_closed.editExpr e false
  rw [resolve, show (s.editor.editExpr e).run false = (some e', b') from run, hr.missing h]

theorem editExpr_temporary {id : LocalId} {value : Expr} (h : s.get? id = some value)
    (type : Option TypeRef) (source : Option SourceContext) (b : Bool) :
    s.editor.editExpr ⟨.temporary id, type, source⟩ b = (some value, b) := by
  rw [Editor.editExpr, editor_of_known h]
  rfl

theorem resolve_temporary (id : LocalId) (type : Option TypeRef) (source : Option SourceContext) :
    s.resolve ⟨.temporary id, type, source⟩ = s.get? id := by
  rcases hid : s.get? id with _ | value
  · exact resolve_of_missing (by simp [Expr.temporary?, hid])
  · have run := editExpr_temporary hid type source false
    rw [resolve, show (s.editor.editExpr ⟨.temporary id, type, source⟩).run false = _ from run]

/-- A call without arguments of a member of a temporary. -/
theorem resolve_call_temporary (id : LocalId) (type : Option TypeRef) (ref : MemberRef) :
    let temp : Expr := ⟨.temporary id, type, none⟩
    s.resolve (ExprForm.call (ExprForm.member (some temp) ref).expr []).expr =
      (s.get? id).map fun value =>
        (ExprForm.call (ExprForm.member (some value) ref).expr []).expr := by
  intro temp
  rcases hid : s.get? id with _ | value
  · exact resolve_of_missing (by simp [temp, ExprForm.expr, Expr.temporary?, hid])
  · have hreceiver : s.editor.editReceiver (some temp) false = (some (some value), false) := by
      rw [Editor.editReceiver, Edit.bind_run (editExpr_temporary hid type none false)]
      rfl
    have hmember : s.editor.editExpr (ExprForm.member (some temp) ref).expr false =
        (some (ExprForm.member (some value) ref).expr, false) := by
      rw [ExprForm.expr, Editor.editExpr, Editor.walkExpr]
      exact Edit.bind_run hreceiver _
    have hcall : s.editor.editExpr
        (ExprForm.call (ExprForm.member (some temp) ref).expr []).expr false =
        (some (ExprForm.call (ExprForm.member (some value) ref).expr []).expr, false) := by
      rw [ExprForm.expr, Editor.editExpr, Editor.walkExpr]
      refine (Edit.bind_run hmember _).trans ?_
      rw [Editor.editExprs]
      rfl
    rw [resolve, show (s.editor.editExpr _).run false = _ from hcall]
    rfl

end MiddleEnd.Spills
