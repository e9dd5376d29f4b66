/-
  Member binding done twice. A name is bound once its parts are, so what it is bound by is settled
  when its turn comes: chains of any length are resolved in one walk from the inside out. Every
  expression that a walk leaves is still, that is, binding it does nothing (`editBlock_still`), and
  in code whose expressions are all still a walk does nothing (`editBlock_of_still`). So behind one
  run over a unit no name of a member is left, and a second run binds nothing (`editUnit_again`).
-/
import MiddleEnd.Proofs.Binding.Opening
import MiddleEnd.Proofs.Code.Everywhere
import MiddleEnd.Proofs.Pass.Reached

namespace MiddleEnd

namespace Binding

variable {u : Universe} {owner : TypeId}

/-! ## Still expressions -/

/-- Binding the expression changes nothing and counts nothing. -/
def Still (u : Universe) (owner : TypeId) (e : Expr) : Prop := ∀ s, bindExpr u owner e s = (e, s)

theorem still_self (owner : TypeId) : Still u owner (self owner) := fun _ => rfl

theorem still_member (receiver : Option Expr) (ref : MemberRef) (type : Option TypeRef)
    (source : Option SourceContext) : Still u owner ⟨.member receiver ref, type, source⟩ :=
  fun _ => rfl

/-- What an expression is bound to is still, if its parts are. -/
theorem bindExpr_still {e : Expr} (h : ∀ x ∈ e.form.exprs false, Still u owner x) (s : State) :
    ∀ x ∈ (bindExpr u owner e s).1.exprs false, Still u owner x := by
  obtain ⟨form, type, source⟩ := e
  -- an expression with settled parts is still once it is so itself
  have settled : ∀ type, Still u owner ⟨form, type, source⟩ →
      ∀ x ∈ Expr.exprs false ⟨form, type, source⟩, Still u owner x := by
    intro type hself
    rw [Expr.exprs, typeExprs_false, List.append_nil]
    exact List.forall_mem_cons.mpr ⟨hself, h⟩
  have member : ∀ {receiver ref type}, (∀ x ∈ optionExprs false receiver, Still u owner x) →
      ∀ x ∈ Expr.exprs false ⟨.member receiver ref, type, source⟩, Still u owner x := by
    intro receiver ref type hreceiver
    rw [Expr.exprs, typeExprs_false, List.append_nil]
    exact List.forall_mem_cons.mpr ⟨still_member _ _ _ _, hreceiver⟩
  cases form with
  | thisRef => exact settled _ fun _ => rfl
  | identifier name =>
      dsimp only [bindExpr]
      rcases hl : lookup u owner name with _ | found
      · refine settled _ fun s => ?_
        simp only [bindExpr, hl]
        rfl
      · refine member ?_
        split
        · simp
        · simpa [self] using still_self owner
  | qualified qualifier name =>
      dsimp only [bindExpr]
      rcases hl : (boundType? qualifier).bind fun type => lookup u type name with _ | found
      · refine settled _ fun s => ?_
        simp only [bindExpr, hl]
        rfl
      · exact member h
  | call callee arguments =>
      refine settled _ fun s => ?_
      -- the type that the call has got is the one it would get again
      have hagain : (callType u callee).or ((callType u callee).or type) =
          (callType u callee).or type := by
        cases callType u callee <;> rfl
      show (_, s) = (_, s)
      rw [hagain]
  | _ => exact settled _ fun _ => rfl

theorem onlyExprs_editor (u : Universe) (owner : TypeId) : (editor u owner).OnlyExprs :=
  ⟨rfl, rfl, rfl⟩

theorem editBlock_still (block : Block) (s : State) :
    ∀ e ∈ ((editor u owner).editBlock block s).1.exprs false, Still u owner e := by
  have hclosed : (leaves (Still u owner)).Closed (editor u owner) := by
    refine leaves_closed (onlyExprs_editor u owner) fun {e walk} h s => ?_
    obtain ⟨walked, s', run, hparts⟩ := h s
    exact ⟨_, _, Edit.bind_run run _, bindExpr_still hparts s'⟩
  exact hclosed.editBlock block s

theorem editBlock_of_still {block : Block} (h : ∀ e ∈ block.exprs false, Still u owner e)
    (s : State) : (editor u owner).editBlock block s = (block, s) := by
  have hclosed : (spares (Still u owner)).Closed (editor u owner) := by
    refine spares_closed (onlyExprs_editor u owner) fun {e walk} h s => ?_
    obtain ⟨walked, s', run, hparts⟩ := h s
    refine ⟨_, _, Edit.bind_run run _, fun hstill => ?_⟩
    obtain ⟨form, type, source⟩ := e
    rw [Expr.exprs, typeExprs_false, List.append_nil] at hstill
    obtain ⟨hself, hrest⟩ := List.forall_mem_cons.mp hstill
    obtain ⟨rfl, rfl⟩ := hparts hrest
    exact Prod.mk.inj (hself s')
  obtain ⟨hblock, hstate⟩ := hclosed.editBlock block s h
  exact Prod.ext hblock hstate

/-! ## Names of members -/

/-- The expression is a name that is there among the members: of the type around if it stands bare,
    of the bound type of its qualifier otherwise. -/
inductive NamesMember (u : Universe) (owner : TypeId) : Expr → Prop where
  | bare {name : String} {type : Option TypeRef} {source : Option SourceContext} :
    (u.findMember? owner name).isSome → NamesMember u owner ⟨.identifier name, type, source⟩
  | qualified {qualifier : Expr} {id : TypeId} {name : String} {type : Option TypeRef}
      {source : Option SourceContext} :
    qualifier.type = some (.bound id) → (u.findMember? id name).isSome →
    NamesMember u owner ⟨.qualified qualifier name, type, source⟩

/-- A lookup finds whatever member there is. -/
theorem exists_lookup {type : TypeId} {name : String} (h : (u.findMember? type name).isSome) :
    ∃ found, lookup u type name = some found := by
  obtain ⟨ref, hfind⟩ := Option.isSome_iff_exists.mp h
  obtain ⟨node, hnode, hindex⟩ := Option.bind_eq_some_iff.mp hfind
  obtain ⟨i, hi, href⟩ := Option.bind_eq_some_iff.mp hindex
  obtain rfl : (⟨type, i⟩ : MemberRef) = ref := Option.some.inj href
  obtain ⟨hlt, -⟩ := List.findIdx?_eq_some_iff_getElem.mp hi
  have hmember : u.member ⟨type, i⟩ = .ok node.members[i] :=
    Universe.member_eq_ok.mpr ⟨node, hnode, List.getElem?_eq_getElem hlt⟩
  exact ⟨_, Option.bind_eq_some_iff.mpr ⟨_, hfind, Option.bind_eq_some_iff.mpr
    ⟨_, toOption_eq_some.mpr hmember, rfl⟩⟩⟩

/-- Binding a name of a member counts, so such a name is not still. -/
theorem Still.not_namesMember {e : Expr} (h : Still u owner e) : ¬ NamesMember u owner e := by
  have hcount : (bindExpr u owner e {}).2.bound ≠ 1 := by
    rw [h {}]
    exact Nat.zero_ne_one
  rintro (hname | ⟨htype, hname⟩)
  · obtain ⟨found, hfound⟩ := exists_lookup hname
    apply hcount
    simp only [bindExpr, hfound]
    rfl
  · obtain ⟨found, hfound⟩ := exists_lookup hname
    apply hcount
    simp only [bindExpr, boundType?, htype, Option.bind_some, hfound]
    rfl

/-! ## The pass -/

/-- Every expression in the body of the method is still. -/
def Bound (outline : Universe) (ref : MemberRef) (m : Method) : Prop :=
  ∀ body, m.body = some body → ∀ e ∈ body.block.exprs false, Still outline ref.type e

theorem still_outline {e : Expr} : Still u.outline owner e ↔ Still u owner e := by
  unfold Still
  rw [bindExpr_outline]

theorem bound_of_revised : reviser.Establishes Bound := by
  intro outline ref m r hr body hbody
  rcases hb : m.body with _ | before
  · rw [hb] at hr
    obtain rfl := Option.some.inj hr
    cases hbody
  · rw [hb] at hr
    obtain rfl := Option.some.inj hr
    obtain rfl := Option.some.inj hbody
    exact editBlock_still before.block {}

theorem editBody_of_bound {ref : MemberRef} {body : Body}
    (h : ∀ e ∈ body.block.exprs false, Still u ref.type e) (bound : Nat) :
    editBody u ref body bound = { body, state := bound } := by
  unfold editBody
  rw [editBlock_of_still h]
  rfl

theorem editMethods_of_bound {s : PassState Nat} {refs : List MemberRef}
    (hr : ∀ ref ∈ refs, s.types.IsMethod ref)
    (hbound : ∀ ref ∈ refs, Universe.Holds Bound s.types ref) :
    (pass.editMethods refs).run s = (.ok (), s) := by
  refine BodyPass.editMethods_rests (fun _ => rfl) hr fun ref href m body hm hb => ?_
  refine editBody_of_bound (fun e he => ?_) s.state
  rw [← still_outline, Universe.outline_bodiless]
  exact hbound ref href m hm body hb e he

/-- Where every body is bound, a run over the unit succeeds, binds nothing and changes nothing. -/
theorem editUnit_of_bound {t : PassState Nat} {unit : CompilationUnit} {refs : List MemberRef}
    (hrefs : t.types.unitMethods unit = .ok refs)
    (hbound : ∀ ref ∈ refs, Universe.Holds Bound t.types ref) :
    ∃ t', (pass.editUnit unit).run t = (.ok (), t') ∧ t'.types = t.types ∧ t'.state = t.state := by
  have hr : ∀ ref ∈ refs, t.types.IsMethod ref :=
    fun ref href => Universe.isMethod_of_unitMethods hrefs href
  have hmethods : ∀ trace, (pass.editMethods refs).run ⟨t.state, t.types, trace⟩ =
      (.ok (), ⟨t.state, t.types, trace⟩) := fun trace => editMethods_of_bound hr hbound
  have hrun := pass.editUnit_run hrefs
  rw [show pass.beginUnit unit t.state = t.state from rfl, hmethods] at hrun
  exact ⟨_, hrun, rfl, rfl⟩

/-- Where the methods of the unit are found, binding succeeds and leaves no name of a member in
    their bodies, types apart. Any later run over the unit succeeds too, binds nothing and leaves
    the universe as it is. -/
theorem editUnit_again {s : PassState Nat} {unit : CompilationUnit} {refs : List MemberRef}
    (hrefs : s.types.unitMethods unit = .ok refs) :
    ∃ s', (pass.editUnit unit).run s = (.ok (), s') ∧
      (∀ ref ∈ refs, ∀ m body, s'.types.method ref = .ok m → m.body = some body →
        ∀ e ∈ body.block.exprs false, ¬ NamesMember s'.types ref.type e) ∧
      ∀ t, t.types = s'.types → ∃ t', (pass.editUnit unit).run t = (.ok (), t') ∧
        t'.types = t.types ∧ t'.state = t.state := by
  have htotal : ∀ outline ref body, ∃ r, reviser outline ref body = some r := by
    intro outline ref body
    cases body with
    | none => exact ⟨_, rfl⟩
    | some body => exact ⟨_, rfl⟩
  obtain ⟨u', hall⟩ := Universe.reviseAll_total htotal fun ref href =>
    Universe.isMethod_of_unitMethods hrefs href
  have hends : (pass.editUnit unit).Ends s (s.types.reviseUnit reviser unit.root.allTypes) _ :=
    pass_revises.editUnit trivial
  rw [Universe.reviseUnit_eq_some.mpr ⟨refs, hrefs, hall⟩] at hends
  obtain ⟨_, s', hrun, rfl, -⟩ := hends.runs
  have hbound : ∀ ref ∈ refs, Universe.Holds Bound s'.types ref :=
    Universe.holds_of_reviseAll bound_of_revised hall
  have hrefs' : s'.types.unitMethods unit = .ok refs := by
    rw [← Universe.unitMethods_outline, Universe.outline_reviseAll hall,
      Universe.unitMethods_outline, hrefs]
  refine ⟨s', hrun, fun ref href m body hm hb e he => ?_, ?_⟩
  · exact (still_outline.mp (hbound ref href m hm body hb e he)).not_namesMember
  · intro t ht
    rw [← ht] at hrefs' hbound
    exact editUnit_of_bound hrefs' hbound

/-! ## A list of nodes -/

namespace Nodes

def nodeId : TypeId := ⟨⟨0⟩, ⟨0⟩⟩

def last : MemberRef := ⟨nodeId, 1⟩

/-- The type as a lowering leaves it. -/
def nodeType : TypeRef := .named (.identifier "Node")

/-- `next.next.Last().next` -/
def walk : Expr :=
  let second := (ExprForm.qualified (.identifier "next") "next").expr
  let far := (ExprForm.call (ExprForm.qualified second "Last").expr []).expr
  (ExprForm.qualified far "next").expr

/-- `Last` looks far ahead; no name of it is bound yet. -/
def nodes : Universe :=
  ⟨⟨#[{
    id := ⟨0⟩
    name := "nodes"
    types := ⟨#[{
      kind := .classType
      name := "Node"
      declaringModule := ⟨0⟩
      members := [
        { name := "next", declaringType := nodeId, kind := .field { type := nodeType } },
        { name := "Last", declaringType := nodeId, kind := .method {
            returnType := nodeType
            body := some { block := { statements := [.expression walk] } } } }] }]⟩ }]⟩⟩

def unit : CompilationUnit := { root := { types := [nodeId] } }

end Nodes

/-- All four names of the chain are bound in the first run, each by the type of the one before
    it. -/
theorem editUnit_again_nodes :
    let s : PassState Nat := ⟨0, Nodes.nodes, []⟩
    s.types.unitMethods Nodes.unit = .ok [Nodes.last] ∧
    ∃ s', (pass.editUnit Nodes.unit).run s = (.ok (), s') ∧ s'.state = 4 ∧
      (∀ ref ∈ [Nodes.last], ∀ m body, s'.types.method ref = .ok m → m.body = some body →
        ∀ e ∈ body.block.exprs false, ¬ NamesMember s'.types ref.type e) ∧
      ∀ t, t.types = s'.types → ∃ t', (pass.editUnit Nodes.unit).run t = (.ok (), t') ∧
        t'.types = t.types ∧ t'.state = t.state := by
  intro s
  have hrefs : s.types.unitMethods Nodes.unit = .ok [Nodes.last] :=
    toOption_eq_some.mp (by decide +kernel)
  have hcount : ((pass.editUnit Nodes.unit).run s).2.state = 4 := by decide +kernel
  obtain ⟨s', hrun, hnames, hagain⟩ := editUnit_again hrefs
  rw [hrun] at hcount
  exact ⟨hrefs, s', hrun, hcount, hnames, hagain⟩

end Binding

end MiddleEnd
