/-
  No temporary gets into a precondition. If the values that are known of temporaries hold none, then
  neither does what an expression resolves to (`noTemporaries_of_resolve`). So a walk only tells
  values without temporaries and only adds facts without them, as long as the methods of the
  universe declare no others (`collected_noTemporaries`).
-/
import MiddleEnd.Proofs.Precondition.Attachment

namespace MiddleEnd

/-- Outside types, no temporary occurs in the fact. -/
def Precondition.NoTemporaries : Precondition → Prop
  | .nonNull value => MiddleEnd.NoTemporaries (value.exprs false)

instance (p : Precondition) : Decidable p.NoTemporaries :=
  match p with
  | .nonNull value => inferInstanceAs (Decidable (MiddleEnd.NoTemporaries (value.exprs false)))

namespace Spills

/-! ## Resolved expressions -/

/-- All known values are free of temporaries. -/
def Clear (s : Spills) : Prop :=
  ∀ id value, s.get? id = some value → NoTemporaries (value.exprs false)

/-- What becomes of code is free of temporaries, unless one is noticed. These are the expressions of
    the code behind the edit. -/
structure Clears (es : List Expr) (before after : Bool) : Prop where
  mono : before = true → after = true
  clear : after = false → NoTemporaries es

/-- Code and what becomes of it, for each class of code. -/
def clearing : EditRelation Bool where
  expr _ b e' b' := Clears (e'.exprs false) b b'
  walked e b e' b' := e.temporary? = none → Clears (e'.exprs false) b b'
  option _ b e' b' := Clears (optionExprs false e') b b'
  exprs _ b es' b' := Clears (exprsExprs false es') b b'
  stmt _ b st' b' := Clears (st'.exprs false) b b'
  labeled _ b st' b' := Clears (labeledExprs false st') b b'
  stmts _ b ss' b' := Clears (stmtsExprs false ss') b b'
  catchers _ b cs' b' := Clears (catchersExprs false cs') b b'
  last _ b block' b' := Clears (lastExprs false block') b b'
  block _ b block' b' := Clears (block'.exprs false) b b'

namespace Clears

variable {es fs : List Expr} {b b₁ b' : Bool}

theorem nil : Clears [] b b := ⟨fun h => h, fun _ => List.forall_mem_nil _⟩

theorem append (hes : Clears es b b₁) (hfs : Clears fs b₁ b') : Clears (es ++ fs) b b' where
  mono := fun h => hfs.mono (hes.mono h)
  clear := fun h => by
    have h₁ : b₁ = false := by
      cases b₁ with
      | false => rfl
      | true => exact absurd (hfs.mono rfl) (by rw [h]; exact Bool.false_ne_true)
    exact noTemporaries_append.mpr ⟨hes.clear h₁, hfs.clear h⟩

/-- A node that is no temporary, by its parts. -/
theorem node {form : ExprForm} {type : Option TypeRef} {source : Option SourceContext}
    (h : Clears es b b') (hes : form.exprs false = es)
    (ht : (⟨form, type, source⟩ : Expr).temporary? = none) :
    Clears (Expr.exprs false ⟨form, type, source⟩) b b' := by
  rw [Expr.exprs, typeExprs_false, List.append_nil, hes]
  exact ⟨h.mono, fun hb => noTemporaries_cons.mpr ⟨ht, h.clear hb⟩⟩

end Clears

theorem clearing_closed {s : Spills} (hs : s.Clear) : clearing.Closed s.editor := by
  constructor
  case expr =>
    intro e walk h
    obtain ⟨form, type, source⟩ := e
    cases form
    case temporary id =>
      intro b
      rcases hid : s.get? id with _ | value
      · exact ⟨_, true, editor_of_unknown hid type source walk b, fun _ => rfl, fun hb => by
          cases hb⟩
      · exact ⟨value, b, congrFun (editor_of_known hid type source walk) b, fun hb => hb,
          fun _ => hs id value hid⟩
    all_goals
      intro b
      obtain ⟨e', b', run, hr⟩ := h b
      exact ⟨e', b', run, hr rfl⟩
  case member =>
    intro receiver ref type source edit h b
    obtain ⟨receiver', b', run, hr⟩ := h b
    exact ⟨_, b', Edit.bind_run run _, fun _ => hr.node rfl rfl⟩
  case call =>
    intro callee arguments type source walk h b
    obtain ⟨_, b', run, callee', b₁, arguments', hc, ha, rfl⟩ := h b
    exact ⟨_, b', run, fun _ => (hc.append ha).node rfl rfl⟩
  case assignMember =>
    intro receiver ref type targetSource source value editTarget editValue editReceiver ht hv hr
    exact AssignmentParts.walk_yields ht hv fun b t b₁ v b' ht hv => ht.append hv
  case assign =>
    intro target value source editTarget editValue hm ht hv
    exact AssignmentParts.walk_yields ht hv fun b t b₁ v b' ht hv => ht.append hv
  case leaf =>
    intro form type source b h ht
    have hes : form.exprs false = [] := ExprForm.exprs_leaf h
    exact Clears.nil.node hes ht
  case qualified | assignment | addressOf | blockExpr => exact fun h _ => Clears.node h rfl rfl
  case cast | construct | constructDelegate => exact fun h _ => Clears.node h (by simp) rfl
  case binary | indexer => exact fun h h' _ => Clears.node (h.append h') rfl rfl
  case constructArray => exact fun h h' _ => Clears.node (h.append h') (by simp) rfl
  case branch | protect => exact fun h h' h'' => Clears.append (h.append h') h''
  case loop => exact fun hi ht hn hb => Clears.append (Clears.append (hi.append ht) hn) hb
  case attachEvent | removeEvent | exprsCons | stmtsCons => exact fun h h' => Clears.append h h'
  case catchersCons =>
    intro type name block cs b block' b₁ cs' b' hb hc
    have hblock : Clears (typeExprs false type ++ block'.exprs false) b b₁ := by
      rwa [typeExprs_false, List.nil_append]
    exact hblock.append hc
  case declaration =>
    intro name type init source b init' b' hi
    have hinit : Clears (type.exprs false ++ optionExprs false init') b b' := by
      rwa [TypeRef.exprs_false, List.nil_append]
    exact hinit
  case optionNone | exprsNil | goto | snippet | labeledNone => exact .nil
  case stmtsNil | catchersNil | lastNone => exact .nil
  all_goals exact fun h => h

theorem noTemporaries_of_resolve {s : Spills} (hs : s.Clear) {e e' : Expr}
    (h : s.resolve e = some e') : NoTemporaries (e'.exprs false) := by
  obtain ⟨resolved, b', run, hr⟩ := (clearing_closed hs).editExpr e false
  rw [resolve, show (s.editor.editExpr e).run false = (some resolved, b') from run] at h
  cases b' with
  | true => cases h
  | false =>
      obtain rfl := Option.some.inj h
      exact hr.clear rfl

theorem Clear.insert {s : Spills} (hs : s.Clear) {value : Expr}
    (hv : NoTemporaries (value.exprs false)) (id : LocalId) : (s.insert id value).Clear := by
  intro id' value' h
  by_cases hid : id' = id
  · rw [hid, get?_insert_self] at h
    exact Option.some.inj h ▸ hv
  · rw [get?_insert_of_ne value hid] at h
    exact hs id' value' h

theorem Clear.erase {s : Spills} (hs : s.Clear) (id : LocalId) : (s.erase id).Clear := by
  intro id' value' h
  by_cases hid : id' = id
  · rw [hid, get?_erase_self] at h
    cases h
  · rw [get?_erase_of_ne hid] at h
    exact hs id' value' h

end Spills

namespace Preconditions

/-! ## Collected facts -/

/-- No method declares a precondition with a temporary in it. -/
def DeclaresNone (u : Universe) : Prop :=
  ∀ ref m, u.method ref = .ok m → ∀ p ∈ m.preconditions, p.NoTemporaries

/-- Neither the known values nor the facts hold temporaries. -/
structure Clear (c : Collection) : Prop where
  spills : c.spills.Clear
  facts : ∀ p ∈ c.facts, p.NoTemporaries

variable {u : Universe} {c : Collection}

theorem Clear.note {p : Precondition} (hc : Clear c) (hp : p.NoTemporaries) :
    Clear (note p c).2 :=
  ⟨hc.spills, List.forall_mem_append.mpr ⟨hc.facts, List.forall_mem_singleton.mpr hp⟩⟩

theorem noteSpill_clear (form : StmtForm) (hc : Clear c) : Clear (noteSpill form c).2 := by
  unfold noteSpill
  split
  · rename_i id _ _ value
    rw [modify_run]
    split
    · rename_i resolved hresolved
      have hvalue := Spills.noTemporaries_of_resolve hc.spills hresolved
      exact ⟨hc.spills.insert hvalue id, hc.facts⟩
    · exact ⟨hc.spills.erase id, hc.facts⟩
  · exact hc

theorem noteReceiver_clear (receiver : Option Expr) (ref : MemberRef) (hc : Clear c) :
    Clear (noteReceiver u receiver ref c).2 := by
  cases receiver with
  | none => exact hc
  | some receiver =>
      dsimp only [noteReceiver]
      rw [StateM.bind_run]
      rcases u.member ref with error | member
      · exact ⟨hc.spills, hc.facts⟩
      · rw [record_ok rfl]
        dsimp only
        cases member.isStatic with
        | true => exact hc
        | false =>
            have here : (get : Collect Collection) c = (c, c) := rfl
            rw [if_pos (by rfl), StateM.bind_run, here]
            dsimp only
            rcases hresolved : c.spills.resolve receiver with _ | resolved
            · exact hc
            · exact hc.note (Spills.noTemporaries_of_resolve hc.spills hresolved)

theorem forM_note_clear {facts : List Precondition} (h : ∀ p ∈ facts, p.NoTemporaries)
    (hc : Clear c) : Clear (facts.forM note c).2 := by
  induction facts generalizing c with
  | nil => exact hc
  | cons fact facts ih =>
      obtain ⟨hfact, hfacts⟩ := List.forall_mem_cons.mp h
      exact ih hfacts (hc.note hfact)

theorem noteCall_clear (hu : DeclaresNone u) (callee : Expr) (hc : Clear c) :
    Clear (noteCall u callee c).2 := by
  obtain ⟨form, type, source⟩ := callee
  cases form with
  | member receiver ref =>
      dsimp only [noteCall]
      rw [StateM.bind_run]
      rcases hm : u.member ref with error | member
      · exact ⟨hc.spills, hc.facts⟩
      · rw [record_ok rfl]
        dsimp only [Option.bind_some]
        rcases hmethod : member.method? with _ | method
        · exact hc
        · have hfound : u.method ref = .ok method := Universe.method_eq_ok.mpr ⟨member, hm, hmethod⟩
          exact forM_note_clear (hu ref method hfound) hc
  | _ => exact hc

theorem visitor_clear (hu : DeclaresNone u) :
    (visitor u).Respects (fun _ => True) Clear where
  block := fun hw => hw
  stmt := fun hw _ hc => hw _ (noteSpill_clear _ hc)
  expr := fun hw => hw
  member := fun _ hw _ hc => hw _ (noteReceiver_clear _ _ hc)
  call := fun _ hw _ hc => hw _ (noteCall_clear hu _ hc)

theorem collect_clear (hu : DeclaresNone u) (block : Block) : Clear (collect u block) := by
  refine (visitor_clear hu).visitBlock block (fun _ _ _ _ _ => trivial) {} ⟨?_, ?_⟩
  · intro id value h
    cases h
  · exact List.forall_mem_nil _

/-- Whatever a body does with its temporaries, the facts that are collected from it hold none, and
    neither does the set that they go into. -/
theorem collected_noTemporaries (hu : DeclaresNone u) (ref : MemberRef) (body : Body) :
    (∀ p ∈ (collect u body.block).facts, p.NoTemporaries) ∧
    ∀ p ∈ (editBody u ref body {}).state.items, p.NoTemporaries := by
  have hfacts := (collect_clear hu body.block).facts
  refine ⟨hfacts, fun p hp => ?_⟩
  dsimp only [editBody] at hp
  split at hp
  · cases hp
  · rw [PreconditionSet.ofList_items] at hp
    exact hfacts p ((eraseDupsBy_sublist _ _).mem hp)

end Preconditions

namespace Chest

def temporary (n : Nat) : Expr := (ExprForm.temporary ⟨n⟩).expr

/-- `$t0 = this.chest; $t0.Open($t1.lock); $t0 = { $t1 = $t2; }; $t0.lock` -/
def shuffle : Body where
  block := { statements := [
    { form := .assignment (temporary 0) (memberOf self chest) },
    .expression (ExprForm.call (memberOf (temporary 0) openLid) [memberOf (temporary 1) lock]).expr,
    { form := .assignment (temporary 0) (ExprForm.block
        { statements := [{ form := .assignment (temporary 1) (temporary 2) }] }).expr },
    .expression (memberOf (temporary 0) lock)] }

end Chest

namespace Preconditions

open Chest

/-- Of four receivers two stand for what a caller can see. -/
theorem collected_noTemporaries_shuffle :
    DeclaresNone types ∧
    (collect types shuffle.block).facts.map Precondition.text =
      ["this != null", "key != null", "this.<0:1#0> != null"] ∧
    ∀ p ∈ (collect types shuffle.block).facts, p.NoTemporaries := by
  have hu : DeclaresNone types := by
    intro ref m hm p hp
    obtain ⟨member, hmember, hmethod⟩ := Universe.method_eq_ok.mp hm
    obtain ⟨node, hnode, hat⟩ := Universe.member_eq_ok.mp hmember
    have hn : node = chestNode ∨ node = drawerNode := by
      simpa [types, Arena.toList] using Universe.mem_types_of_type (Universe.type_eq_ok.mpr hnode)
    have hmem := List.mem_of_getElem? hat
    rcases hn with rfl | rfl
    · simp only [chestNode, List.mem_cons, List.not_mem_nil, or_false] at hmem
      rcases hmem with rfl | rfl | rfl
      · cases hmethod
      · cases hmethod
        obtain rfl := List.mem_singleton.mp hp
        decide
      · cases hmethod
    · simp only [drawerNode, List.mem_cons, List.not_mem_nil, or_false] at hmem
      rcases hmem with rfl | rfl
      · cases hmethod
      · cases hmethod
        cases hp
  exact ⟨hu, by decide +kernel, (collected_noTemporaries hu pull shuffle).1⟩

end Preconditions

end MiddleEnd
