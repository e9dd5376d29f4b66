/-
  Lowering of declarations gives fresh modules. Members of a type are collected while the types
  nested in it enter the module behind it, so the module only grows, and the ids and positions that
  were handed out on the way stay good (`unit_grows`).
-/
import MiddleEnd.Lowering.Declaration
import MiddleEnd.Proofs.Lowering.Code
import MiddleEnd.Proofs.Universe.Fresh

namespace MiddleEnd

/-! ## Members that leave the module alone -/

theorem Lower.Yields.mapM {σ α β : Type} {f : α → Lower σ β}
    (h : ∀ a, (f a).Yields fun _ => True) (as : List α) :
    Lower.Yields (as.mapM f) fun _ => True := by
  induction as with
  | nil =>
      rw [List.mapM_nil]
      exact .pure trivial
  | cons a as ih =>
      rw [List.mapM_cons]
      exact .bind (h a) fun _ _ => .bind ih fun _ _ => .pure trivial

namespace Lowering

variable {σ : Type} (host : Host σ)

theorem attributeArguments_yields (as : List CodeTree.AttributeArgument) :
    (attributeArguments host as).Yields fun _ => True := by
  induction as with
  | nil => exact .pure trivial
  | cons a as ih =>
      rw [attributeArguments]
      refine .bind (expr_yields host a.value) fun value _ => .bind ih fun rest _ => ?_
      split <;> exact .pure trivial

theorem attributes_yields (as : List CodeTree.Attribute) :
    (attributes host as).Yields fun _ => True := by
  have each (a : CodeTree.Attribute) : (attributeUse host a).Yields fun _ => True :=
    .bind (attributeArguments_yields host a.arguments) fun _ _ => .pure trivial
  exact .mapM each as

theorem parameters_yields (ps : List CodeTree.Parameter) :
    (parameters host ps).Yields fun _ => True := by
  have each (p : CodeTree.Parameter) : (parameter host p).Yields fun _ => True :=
    .bind (attributes_yields host p.customAttributes) fun _ _ => .pure trivial
  exact .mapM each ps

/-- A member of the type that refers to no other type. -/
structure Own (owner : TypeId) (m : Member) : Prop where
  owner_eq : m.declaringType = owner
  kind : m.kind.Fresh fun _ => False

theorem Own.fresh {owner : TypeId} {m : Member} (h : Own owner m) {has : TypeId → Prop}
    (ho : has owner) : m.Fresh has :=
  ⟨h.owner_eq ▸ ho, h.kind.mono fun _ => False.elim⟩

/-- A member of the type that is no property and refers to no other type. -/
structure Plain (owner : TypeId) (m : Member) : Prop extends Own owner m where
  noProperty : m.property? = none

section

variable (owner : Owner) (source : Option SourceContext)

theorem enumField_yields (d : CodeTree.FieldDeclaration) :
    (enumField host owner d).Yields fun f => MemberFree (f.type.exprs true) :=
  .bind (exprOption_yields host d.init) fun _ _ => .pure (by simp)

theorem ordinaryField_yields (d : CodeTree.FieldDeclaration) :
    (ordinaryField host d).Yields fun f => MemberFree (f.type.exprs true) :=
  .bind (exprOption_yields host d.init) fun _ _ => .pure (typeRef_memberFree d.type)

theorem fieldMember_yields (d : CodeTree.FieldDeclaration) :
    (fieldMember host owner source d).Yields (Plain owner.id) := by
  unfold fieldMember
  dsimp only
  split
  · refine .bind (enumField_yields host owner d) fun f hf => ?_
    exact .bind (attributes_yields host d.customAttributes) fun _ _ => .pure ⟨⟨rfl, hf⟩, rfl⟩
  · refine .bind (ordinaryField_yields host d) fun f hf => ?_
    exact .bind (attributes_yields host d.customAttributes) fun _ _ => .pure ⟨⟨rfl, hf⟩, rfl⟩

theorem bodyOf_yields (flags : MethodFlags) (statements : List CodeTree.Stmt) :
    (bodyOf host owner flags statements).Yields fun b =>
      ∀ body, b = some body → MemberFree (body.block.exprs true) := by
  unfold bodyOf
  split
  · refine .bind (block_yields host statements) fun b hb => .pure ?_
    rintro _ ⟨⟩
    exact hb
  · exact .pure nofun

theorem methodMember_yields (name : String) (modifiers : CodeTree.MemberAttributes)
    (d : CodeTree.MethodDeclaration) :
    (methodMember host owner source name modifiers d).Yields (Plain owner.id) := by
  unfold methodMember
  refine .bind (parameters_yields host d.parameters) fun _ _ => ?_
  refine .bind (attributes_yields host d.returnAttributes) fun _ _ => ?_
  refine .bind (bodyOf_yields host owner _ d.statements) fun body hb => ?_
  refine .bind (attributes_yields host d.customAttributes) fun _ _ => ?_
  exact .pure ⟨⟨rfl, returnType_memberFree d.returnType, hb⟩, rfl⟩

theorem chainArguments_yields (es : List CodeTree.Expr) :
    (chainArguments host es).Yields fun es => MemberFree (exprsExprs true es) := by
  induction es with
  | nil => exact .pure namesOnly_nil
  | cons e es ih =>
      rw [chainArguments]
      refine .bind (expr_yields host e) fun e he => .bind ih fun es hes => .pure ?_
      cases e with
      | none => exact hes
      | some e => exact namesOnly_append.mpr ⟨he, hes⟩

theorem chainCall_memberFree {receiver : ExprForm} {arguments : List Expr}
    (hr : receiver = .baseRef ∨ receiver = .thisRef)
    (ha : MemberFree (exprsExprs true arguments)) :
    MemberFree ((chainCall receiver arguments).exprs true) := by
  rcases hr with rfl | rfl <;> simp [chainCall, Stmt.expression, ExprForm.expr, ha]

/-- A constructor from its chain call and the rest of its statements. -/
theorem plain_constructor {owner : TypeId} {chain : Stmt} {statements : List Stmt} {m : Member}
    {method : Method} (hc : MemberFree (chain.exprs true))
    (hs : MemberFree (stmtsExprs true statements)) (ho : m.declaringType = owner)
    (hk : m.kind = .method method) (hr : method.returnType = .void)
    (hb : method.body = some { block := { statements := chain :: statements } }) :
    Plain owner m := by
  refine ⟨⟨ho, ?_⟩, by rw [Member.property?, hk]⟩
  rw [hk]
  refine ⟨by simp [hr, TypeRef.void], fun body hbody => ?_⟩
  obtain rfl := Option.some.inj (hb.symm.trans hbody)
  exact namesOnly_append.mpr ⟨hc, hs⟩

theorem constructorMember_yields (d : CodeTree.ConstructorDeclaration) :
    (constructorMember host owner source d).Yields (Plain owner.id) := by
  unfold constructorMember
  dsimp only
  split
  · refine .bind (chainArguments_yields host d.baseArguments) fun arguments ha => ?_
    rw [pure_bind]
    refine .bind (stmts_yields host d.statements) fun ss hss => ?_
    refine .bind (parameters_yields host d.parameters) fun _ _ => ?_
    refine .bind (attributes_yields host d.customAttributes) fun _ _ => .pure ?_
    exact plain_constructor (chainCall_memberFree (.inl rfl) ha) hss rfl rfl rfl rfl
  · refine .bind (chainArguments_yields host d.chainedArguments) fun arguments ha => ?_
    rw [pure_bind]
    refine .bind (stmts_yields host d.statements) fun ss hss => ?_
    refine .bind (parameters_yields host d.parameters) fun _ _ => ?_
    refine .bind (attributes_yields host d.customAttributes) fun _ _ => .pure ?_
    exact plain_constructor (chainCall_memberFree (.inr rfl) ha) hss rfl rfl rfl rfl

theorem defaultConstructor_plain (owner : TypeId) : Plain owner (defaultConstructor owner) :=
  plain_constructor (chainCall_memberFree (.inl rfl) namesOnly_nil) namesOnly_nil rfl rfl rfl rfl

theorem eventMember_yields (d : CodeTree.EventDeclaration) :
    (eventMember host owner source d).Yields (Plain owner.id) :=
  .bind (attributes_yields host d.customAttributes) fun _ _ => .pure ⟨⟨rfl, trivial⟩, rfl⟩

/-! ## Properties -/

theorem accessor_yields (declared : Bool) (name : String) {method : Method}
    (statements : List CodeTree.Stmt) (hr : MemberFree (method.returnType.exprs true)) :
    (accessor host owner source declared name method statements).Yields fun ms =>
      (declared = true → ms ≠ []) ∧ ∀ m ∈ ms, Own owner.id m ∧ m.method?.isSome := by
  unfold accessor
  split
  · refine .bind (bodyOf_yields host owner method.flags statements) fun body hb => .pure ?_
    refine ⟨fun _ => List.cons_ne_nil _ _, fun m hm => ?_⟩
    rw [List.mem_singleton.mp hm]
    exact ⟨⟨rfl, hr, hb⟩, rfl⟩
  · rename_i hd
    exact .pure ⟨fun h => absurd h hd, fun _ hm => absurd hm List.not_mem_nil⟩

/-- The getter stands at the first position, the setter behind it. -/
theorem accessorsAt_property {owner : TypeId} {position : Nat} {getter setter : List Member}
    {m : Member} {property : Property} (hm : ∀ x ∈ getter ++ setter, x.method?.isSome)
    (hk : m.kind = .property property)
    (hg : ∀ ref, property.getter = some ref → ref = ⟨owner, position⟩ ∧ getter ≠ [])
    (hs : ∀ ref, property.setter = some ref →
      ref = ⟨owner, position + getter.length⟩ ∧ setter ≠ []) :
    AccessorsAt owner position (getter ++ setter ++ [m]) := by
  intro x hx property' hp ref href
  have hx : x = m := by
    rcases List.mem_append.mp hx with hx | hx
    · obtain ⟨method, hmethod⟩ := Option.isSome_iff_exists.mp (hm x hx)
      unfold Member.method? at hmethod
      unfold Member.property? at hp
      split at hmethod
      · rename_i hkind
        rw [hkind] at hp
        cases hp
      · cases hmethod
    · exact List.mem_singleton.mp hx
  obtain rfl : property = property' := by
    rw [hx, Member.property?, hk] at hp
    exact Option.some.inj hp
  rcases href with href | href
  · obtain ⟨rfl, hne⟩ := hg ref href
    obtain ⟨first, rest, rfl⟩ := List.exists_cons_of_ne_nil hne
    exact ⟨rfl, 0, first, rfl, rfl, hm first (by simp)⟩
  · obtain ⟨rfl, hne⟩ := hs ref href
    obtain ⟨first, rest, rfl⟩ := List.exists_cons_of_ne_nil hne
    refine ⟨rfl, getter.length, first, rfl, ?_, hm first (by simp)⟩
    rw [List.append_assoc, List.getElem?_append_right (Nat.le_refl _), Nat.sub_self]
    rfl

theorem propertyMembers_yields (position : Nat) (d : CodeTree.PropertyDeclaration) :
    (propertyMembers host owner source position d).Yields fun ms =>
      (∀ m ∈ ms, Own owner.id m) ∧ AccessorsAt owner.id position ms := by
  unfold propertyMembers
  refine .bind (parameters_yields host d.parameters) fun _ _ => ?_
  refine .bind (accessor_yields host owner source d.hasGet _ d.getStatements
    (typeRef_memberFree d.type)) fun getter hg => ?_
  refine .bind (accessor_yields host owner source d.hasSet _ d.setStatements
    (by simp [TypeRef.void])) fun setter hs => ?_
  refine .bind (attributes_yields host d.customAttributes) fun _ _ => .pure ⟨?_, ?_⟩
  · intro m hm
    rcases List.mem_append.mp hm with hm | hm
    · rcases List.mem_append.mp hm with hm | hm
      · exact (hg.2 m hm).1
      · exact (hs.2 m hm).1
    · rw [List.mem_singleton.mp hm]
      exact ⟨rfl, trivial⟩
  · refine accessorsAt_property ?_ rfl ?_ ?_
    · intro x hx
      rcases List.mem_append.mp hx with hx | hx
      · exact (hg.2 x hx).2
      · exact (hs.2 x hx).2
    · intro ref href
      dsimp only at href
      split at href
      · rename_i hget
        exact ⟨(Option.some.inj href).symm, hg.1 hget⟩
      · cases href
    · intro ref href
      dsimp only at href
      split at href
      · rename_i hset
        exact ⟨(Option.some.inj href).symm, hs.1 hset⟩
      · cases href

theorem unitSource_yields (s : CodeTree.UnitSnippet) :
    (unitSource host s).Yields fun _ => True := by
  unfold unitSource
  dsimp only
  split
  · exact .bind (.ask _) fun _ _ => .pure trivial
  · exact fun _ => ⟨trivial, rfl⟩

end

theorem typeKind_yields (baseTypes : List CodeTree.TypeReference) (kind : CodeTree.TypeKind) :
    (typeKind host baseTypes kind).Yields fun _ => True := by
  cases kind with
  | delegateType ps type =>
      exact .bind (parameters_yields host ps) fun _ _ => .pure trivial
  | _ => exact .pure trivial

end Lowering

/-! ## Growing modules -/

namespace Lower

variable {σ α β : Type} {m : Module}

/-- From a fresh module to a fresh one that has grown, where `post` holds of it and the result. -/
def Grows (action : Lower σ α) (m : Module) (post : α → Module → Prop) : Prop :=
  ∀ s, s.module = m → m.Fresh → (action s).2.module.Fresh ∧ m.Grows (action s).2.module ∧
    post (action s).1 (action s).2.module

namespace Grows

theorem pure {a : α} {post : α → Module → Prop} (h : post a m) :
    (Pure.pure a : Lower σ α).Grows m post := by
  rintro s rfl hm
  exact ⟨hm, .refl _, h⟩

theorem bind {action : Lower σ α} {next : α → Lower σ β} {mid : α → Module → Prop}
    {post : β → Module → Prop} (h : action.Grows m mid)
    (hn : ∀ a m', m.Grows m' → mid a m' → (next a).Grows m' post) :
    Lower.Grows (action >>= next) m post := by
  intro s hs hm
  obtain ⟨hfresh, hgrows, hmid⟩ := h s hs hm
  obtain ⟨hfresh', hgrows', hpost⟩ := hn _ _ hgrows hmid (action s).2 rfl hfresh
  exact ⟨hfresh', hgrows.trans hgrows', hpost⟩

/-- First an action that leaves the module alone. -/
theorem behind {action : Lower σ α} {next : α → Lower σ β} {mid : α → Prop}
    {post : β → Module → Prop} (h : action.Yields mid)
    (hn : ∀ a, mid a → (next a).Grows m post) : Lower.Grows (action >>= next) m post := by
  intro s hs hm
  obtain ⟨hmid, hsame⟩ := h s
  exact hn _ hmid (action s).2 (hsame.trans hs) hm

theorem get {next : LoweringState σ → Lower σ β} {post : β → Module → Prop}
    (hn : ∀ s, (next s).Grows m post) : Lower.Grows (MonadState.get >>= next) m post :=
  fun s => hn s s

theorem emit {event : TraceEvent} {next : Unit → Lower σ β} {post : β → Module → Prop}
    (hn : (next ()).Grows m post) : Lower.Grows (Lower.emit event >>= next) m post :=
  .behind (.emit event) fun _ _ => hn

theorem addType {t : TypeNode} (ho : ∀ outer, t.declaringType = some outer → m.HasType outer)
    (hm : t.members = []) (hc : t.contract = none) :
    (Lower.addType t : Lower σ TypeId).Grows m fun id m' => m'.HasType id := by
  rintro s rfl hfresh
  exact ⟨hfresh.addType ho hm hc, Module.grows_addType s.module t,
    Module.hasType_addType s.module t⟩

theorem modifyModule {f : Module → Module} (hf : m.Fresh → (f m).Fresh) (hg : m.Grows (f m)) :
    (Lower.modifyModule f : Lower σ Unit).Grows m fun _ _ => True := by
  rintro s rfl hfresh
  exact ⟨hf hfresh, hg, trivial⟩

/-- Results that are good at a module and stay good as it grows. -/
theorem mapM {f : α → Lower σ β} {post : β → Module → Prop}
    (h : ∀ a m, (f a).Grows m post)
    (stays : ∀ b m m', m.Grows m' → post b m → post b m') (as : List α) (m : Module) :
    Lower.Grows (as.mapM f) m fun bs m' => ∀ b ∈ bs, post b m' := by
  induction as generalizing m with
  | nil =>
      rw [List.mapM_nil]
      exact .pure fun _ hb => absurd hb List.not_mem_nil
  | cons a as ih =>
      rw [List.mapM_cons]
      refine .bind (h a m) fun b m₁ _ hb => ?_
      refine .bind (ih m₁) fun bs m₂ hgrows hbs => .pure ?_
      exact List.forall_mem_cons.mpr ⟨stays b m₁ m₂ hgrows hb, hbs⟩

end Grows

end Lower

namespace Lowering

variable {σ : Type} (host : Host σ)

/-- Members of a type from a position on, as the types of a module go. -/
structure FreshAt (m : Module) (owner : TypeId) (position : Nat) (members : List Member) :
    Prop where
  fresh : ∀ x ∈ members, x.Fresh m.HasType
  accessors : AccessorsAt owner position members

theorem FreshAt.nil {m : Module} {owner : TypeId} {position : Nat} : FreshAt m owner position [] :=
  ⟨fun _ hx => absurd hx List.not_mem_nil, .nil⟩

theorem FreshAt.append {m m' : Module} {owner : TypeId} {position : Nat}
    {first rest : List Member} (hg : m.Grows m') (hf : FreshAt m owner position first)
    (hr : FreshAt m' owner (position + first.length) rest) :
    FreshAt m' owner position (first ++ rest) := by
  refine ⟨?_, hf.accessors.append hr.accessors⟩
  rw [List.forall_mem_append]
  exact ⟨fun x hx => (hf.fresh x hx).mono fun _ => hg.hasType, hr.fresh⟩

theorem Plain.freshAt {m : Module} {owner : TypeId} {position : Nat} {x : Member}
    (h : Plain owner x) (ho : m.HasType owner) : FreshAt m owner position [x] := by
  refine ⟨fun y hy => ?_, .of_none h.noProperty⟩
  rw [List.mem_singleton.mp hy]
  exact h.fresh ho

theorem FreshAt.withConstructor {m : Module} {owner : TypeId} {members : List Member}
    (h : FreshAt m owner 0 members) (ho : m.HasType owner) (kind : CodeTree.TypeKind) :
    FreshAt m owner 0 (withConstructor kind owner members) := by
  unfold Lowering.withConstructor
  split
  · exact h.append (.refl m) ((defaultConstructor_plain owner).freshAt ho)
  · exact h

mutual

theorem typeDeclaration_grows (ns : String) (outer : Option TypeId) :
    (d : CodeTree.TypeDeclaration) → {m : Module} → (∀ id, outer = some id → m.HasType id) →
      (typeDeclaration host ns outer d).Grows m fun id m' => m'.HasType id
  | ⟨name, kind, modifiers, baseTypes, declared, customAttributes, source⟩ => fun ho => by
      rw [typeDeclaration]
      refine .behind (typeKind_yields host baseTypes kind) fun nodeKind _ => ?_
      refine .behind (attributes_yields host customAttributes) fun attributes _ => ?_
      refine .get fun s => ?_
      refine .bind (.addType ho rfl rfl) fun id m₁ _ hid => ?_
      split
      · exact .pure hid
      · refine .bind (members_grows (ownerOf id kind) 0 declared ?_) fun ms m₂ hgrows hms => ?_
        · cases kind <;> exact hid
        · -- nested types came in behind this one, so its id is as good as before
          have hid₂ : m₂.HasType id := hgrows.hasType hid
          have howner : (ownerOf id kind).id = id := by cases kind <;> rfl
          rw [howner] at hms
          have hall := hms.withConstructor hid₂ kind
          refine .emit ?_
          refine .bind (.modifyModule (fun hm₂ => hm₂.setMembers hall.fresh hall.accessors)
            (Module.grows_modifyType m₂ id _)) fun _ m₃ hgrows₃ _ => ?_
          exact .pure (hgrows₃.hasType hid₂)

theorem members_grows (owner : Owner) (position : Nat) :
    (ds : List CodeTree.Member) → {m : Module} → m.HasType owner.id →
      (members host owner position ds).Grows m fun ms m' => FreshAt m' owner.id position ms
  | [] => fun _ => .pure .nil
  | d :: ds => fun ho => by
      rw [members]
      refine .bind (member_grows owner position d ho) fun first m₁ hgrows hf => ?_
      refine .bind (members_grows owner (position + first.length) ds (hgrows.hasType ho))
        fun rest m₂ hgrows₂ hr => ?_
      exact .pure (hf.append hgrows₂ hr)

theorem member_grows (owner : Owner) (position : Nat) :
    (d : CodeTree.Member) → {m : Module} → m.HasType owner.id →
      (member host owner position d).Grows m fun ms m' => FreshAt m' owner.id position ms
  | ⟨.unrecognized kind, source⟩ => fun _ => by
      rw [member]
      exact .behind (.unexpected kind source) fun _ _ => .pure .nil
  | ⟨.field d, source⟩ => fun ho => by
      rw [member]
      exact .behind (fieldMember_yields host owner source d) fun _ hx => .pure (hx.freshAt ho)
  | ⟨.method d, source⟩ => fun ho => by
      rw [member]
      exact .behind (methodMember_yields host owner source d.name d.attributes d) fun _ hx =>
        .pure (hx.freshAt ho)
  | ⟨.entryPoint d, source⟩ => fun ho => by
      rw [member]
      exact .behind (methodMember_yields host owner source "Main" .publicStatic d) fun _ hx =>
        .pure (hx.freshAt ho)
  | ⟨.constructor d, source⟩ => fun ho => by
      rw [member]
      exact .behind (constructorMember_yields host owner source d) fun _ hx =>
        .pure (hx.freshAt ho)
  | ⟨.property d, source⟩ => fun ho => by
      rw [member]
      intro s hs hm
      obtain ⟨⟨hown, haccessors⟩, hsame⟩ := propertyMembers_yields host owner source position d s
      rw [hsame, hs]
      exact ⟨hm, .refl _, fun x hx => (hown x hx).fresh ho, haccessors⟩
  | ⟨.event d, source⟩ => fun ho => by
      rw [member]
      exact .behind (eventMember_yields host owner source d) fun _ hx => .pure (hx.freshAt ho)
  | ⟨.snippet text pragma, _⟩ => fun ho => by
      rw [member]
      refine .behind (.snippetDocument host pragma text) fun document _ => .pure ?_
      exact Plain.freshAt ⟨⟨rfl, trivial⟩, rfl⟩ ho
  | ⟨.nestedType d, source⟩ => fun ho => by
      rw [member]
      refine .bind (typeDeclaration_grows "" (some owner.id) d ?_) fun id m₁ hgrows hid => .pure ?_
      · rintro _ ⟨⟩
        exact ho
      · refine ⟨fun x hx => ?_, .of_none rfl⟩
        rw [List.mem_singleton.mp hx]
        exact ⟨hgrows.hasType ho, hid⟩

end

/-! ## Units -/

theorem namespaceNode_grows (n : CodeTree.Namespace) (m : Module) :
    (namespaceNode host n).Grows m fun ns m' => ∀ id ∈ ns.allTypes, m'.HasType id := by
  refine .bind (.mapM (fun d m => typeDeclaration_grows host n.name none d nofun)
    (fun _ _ _ hgrows => hgrows.hasType) n.types m) fun ids m₁ _ hids => ?_
  refine .pure fun id hid => ?_
  rw [Namespace.allTypes, allTypesOf, List.append_nil] at hid
  exact hids id hid

theorem references_grows (seen : List String) (names : List String) (m : Module) :
    (references host seen names).Grows m fun _ _ => True := by
  induction names generalizing seen m with
  | nil => exact .pure trivial
  | cons name names ih =>
      rw [references]
      refine .behind (.ask _) fun answer _ => ?_
      split
      · split
        · exact .emit (ih seen m)
        · refine .bind (.modifyModule (fun hm => hm) ⟨rfl, Nat.le_refl _⟩) fun _ m₁ _ _ => ?_
          exact ih _ m₁
      · refine .emit ?_
        exact .behind (.modify fun _ => rfl) fun _ _ => ih seen m

theorem mem_allTypesOf {namespaces : List Namespace} {p : TypeId → Prop}
    (h : ∀ n ∈ namespaces, ∀ id ∈ n.allTypes, p id) : ∀ id ∈ allTypesOf namespaces, p id := by
  induction namespaces with
  | nil => exact fun _ hid => absurd hid List.not_mem_nil
  | cons n namespaces ih =>
      obtain ⟨hn, hrest⟩ := List.forall_mem_cons.mp h
      rw [allTypesOf, List.forall_mem_append]
      exact ⟨hn, ih hrest⟩

/-- A unit is lowered into fresh types, all of them in the module. -/
theorem unit_grows (tree : CodeTree.CompileUnit) (m : Module) :
    (unit host tree).Grows m fun c m' => ∀ id ∈ c.root.allTypes, m'.HasType id := by
  unfold unit
  refine .get fun s => ?_
  refine .behind (attributes_yields host tree.assemblyAttributes) fun _ _ => ?_
  refine .bind (.modifyModule (fun hm => hm) ⟨rfl, Nat.le_refl _⟩) fun _ m₁ _ _ => ?_
  refine .get fun s₁ => ?_
  refine .bind (references_grows host _ tree.referencedAssemblies m₁) fun _ m₂ _ _ => ?_
  refine .bind (.mapM (namespaceNode_grows host)
    (fun _ _ _ hgrows hall id hid => hgrows.hasType (hall id hid)) tree.namespaces m₂)
    fun namespaces m₃ _ hall => ?_
  have htypes : ∀ id ∈ allTypesOf namespaces, m₃.HasType id := mem_allTypesOf hall
  dsimp only
  split
  · rw [pure_bind]
    refine .get fun s₂ => .emit (.pure ?_)
    exact htypes
  · rename_i snippet _
    refine .behind (unitSource_yields host snippet) fun source _ => ?_
    rw [pure_bind]
    refine .get fun s₂ => .emit (.pure ?_)
    exact htypes

end Lowering

end MiddleEnd
