/-
  Constructors start by calling another constructor, of the class at hand or of its base. Lowering
  puts such a chain call in front of the statements of every constructor, also of one that it adds
  itself, and no other member is a constructor. Types get their members only once, so every
  constructor of a lowered module opens with its chain call (`unit_opens`).
-/
import MiddleEnd.Proofs.Lowering.Declaration

namespace MiddleEnd

/-! ## Chain calls -/

/-- The object at hand, as it is or as one of its base class. -/
def Expr.isSelf (e : Expr) : Bool :=
  match e.form with
  | .thisRef => true
  | .baseRef => true
  | _ => false

/-- A constructor of the object at hand by its name, or a member of it that `named` accepts. -/
def Expr.namesConstructor (named : MemberRef → Bool) (e : Expr) : Bool :=
  match e.form with
  | .qualified receiver name => receiver.isSelf && name == Lowering.constructorName
  | .member (some receiver) ref => receiver.isSelf && named ref
  | _ => false

def Expr.callsConstructor (named : MemberRef → Bool) (e : Expr) : Bool :=
  match e.form with
  | .call callee _ => callee.namesConstructor named
  | _ => false

/-- An expression statement that calls a constructor of the object at hand. -/
def Stmt.isChainCall (named : MemberRef → Bool) (s : Stmt) : Bool :=
  match s.form with
  | .expression e => e.callsConstructor named
  | _ => false

/-- The first statement of the body is a chain call. -/
def Body.opens (named : MemberRef → Bool) (body : Body) : Bool :=
  body.block.statements.head?.any (Stmt.isChainCall named)

/-- Whether the member is there and called like a constructor. -/
def Universe.isConstructorName (u : Universe) (ref : MemberRef) : Bool :=
  match u.member ref with
  | .ok member => member.name == Lowering.constructorName
  | .error _ => false

/-- A constructor has a body that opens with a chain call, not bound yet. -/
def Member.Opens (x : Member) : Prop :=
  ∀ method, x.method? = some method → method.isConstructor = true →
    ∃ body, method.body = some body ∧ body.opens (fun _ => false) = true

theorem Member.opens_of_noMethod {x : Member} (h : x.method? = none) : x.Opens := by
  intro method hm
  rw [h] at hm
  cases hm

theorem Member.opens_of_ordinary {x : Member} {method : Method} (h : x.method? = some method)
    (hk : method.isConstructor = false) : x.Opens := by
  intro found hm hc
  obtain rfl := Option.some.inj (h.symm.trans hm)
  rw [hk] at hc
  cases hc

theorem Member.opens_of_chain {x : Member} {method : Method} {receiver : ExprForm}
    {arguments : List Expr} {statements : List Stmt} (h : x.method? = some method)
    (hr : receiver = .baseRef ∨ receiver = .thisRef)
    (hb : method.body =
      some { block := { statements := Lowering.chainCall receiver arguments :: statements } }) :
    x.Opens := by
  intro found hm _
  obtain rfl := Option.some.inj (h.symm.trans hm)
  refine ⟨_, hb, ?_⟩
  rcases hr with rfl | rfl <;> rfl

/-! ## Lowering -/

/-- Every constructor of the types opens with a chain call. -/
def Module.Opens (m : Module) : Prop := ∀ t ∈ m.types.toList, ∀ x ∈ t.members, x.Opens

namespace Lower

variable {σ α β : Type}

/-- If the constructors of the module open with chain calls, they do so behind the action, and
    `post` holds of its result. -/
def Opens (action : Lower σ α) (post : α → Prop) : Prop :=
  ∀ s, s.module.Opens → (action s).2.module.Opens ∧ post (action s).1

namespace Opens

theorem pure {a : α} {post : α → Prop} (h : post a) : (Pure.pure a : Lower σ α).Opens post :=
  fun _ hm => ⟨hm, h⟩

theorem bind {action : Lower σ α} {next : α → Lower σ β} {mid : α → Prop} {post : β → Prop}
    (h : action.Opens mid) (hn : ∀ a, mid a → (next a).Opens post) :
    Lower.Opens (action >>= next) post := by
  intro s hm
  obtain ⟨hmodule, hmid⟩ := h s hm
  exact hn _ hmid (action s).2 hmodule

/-- An action that leaves the module alone. -/
theorem of_yields {action : Lower σ α} {post : α → Prop} (h : action.Yields post) :
    action.Opens post := by
  intro s hm
  obtain ⟨hpost, hsame⟩ := h s
  rw [hsame]
  exact ⟨hm, hpost⟩

/-- First an action that leaves the module alone. -/
theorem behind {action : Lower σ α} {next : α → Lower σ β} {mid : α → Prop} {post : β → Prop}
    (h : action.Yields mid) (hn : ∀ a, mid a → (next a).Opens post) :
    Lower.Opens (action >>= next) post :=
  .bind (.of_yields h) hn

theorem get {next : LoweringState σ → Lower σ β} {post : β → Prop}
    (hn : ∀ s, (next s).Opens post) : Lower.Opens (MonadState.get >>= next) post :=
  fun s => hn s s

theorem modifyModule {f : Module → Module} (hf : ∀ m, m.Opens → (f m).Opens) :
    (Lower.modifyModule f : Lower σ Unit).Opens fun _ => True :=
  fun s hm => ⟨hf s.module hm, trivial⟩

theorem mapM {f : α → Lower σ β} (h : ∀ a, (f a).Opens fun _ => True) (as : List α) :
    Lower.Opens (as.mapM f) fun _ => True := by
  induction as with
  | nil =>
      rw [List.mapM_nil]
      exact .pure trivial
  | cons a as ih =>
      rw [List.mapM_cons]
      exact .bind (h a) fun _ _ => .bind ih fun _ _ => .pure trivial

theorem addType {t : TypeNode} (ht : t.members = []) :
    (Lower.addType t : Lower σ TypeId).Opens fun _ => True := by
  refine fun s hm => ⟨fun node hnode => ?_, trivial⟩
  have hpush : node ∈ (s.module.types.items.push t).toList := hnode
  rw [Array.toList_push, List.mem_append, List.mem_singleton] at hpush
  rcases hpush with hold | rfl
  · exact hm node hold
  · rw [ht]
    exact fun _ hx => absurd hx List.not_mem_nil

end Opens

end Lower

theorem Module.Opens.setMembers {m : Module} (h : m.Opens) (id : TypeId) {members : List Member}
    (hms : ∀ x ∈ members, x.Opens) : (m.modifyType id fun t => { t with members }).Opens := by
  unfold Module.modifyType
  split
  · intro t ht
    have hmem : t ∈ (m.types.items.modify id.index.index fun t => { t with members }).toList := ht
    obtain ⟨i, hi⟩ := List.getElem?_of_mem hmem
    rw [Array.getElem?_toList, Array.getElem?_modify] at hi
    split at hi
    · obtain ⟨before, -, rfl⟩ := Option.map_eq_some_iff.mp hi
      exact hms
    · exact h t (Array.mem_toList_iff.mpr (Array.mem_of_getElem? hi))
  · exact h

namespace Lowering

variable {σ : Type} (host : Host σ)

section

variable (owner : Owner) (source : Option SourceContext)

theorem fieldMember_opens (d : CodeTree.FieldDeclaration) :
    (fieldMember host owner source d).Yields Member.Opens := by
  unfold fieldMember
  dsimp only
  split
  · refine .bind (enumField_yields host owner d) fun _ _ => ?_
    exact .bind (attributes_yields host d.customAttributes) fun _ _ =>
      .pure (Member.opens_of_noMethod rfl)
  · refine .bind (ordinaryField_yields host d) fun _ _ => ?_
    exact .bind (attributes_yields host d.customAttributes) fun _ _ =>
      .pure (Member.opens_of_noMethod rfl)

theorem methodMember_opens (name : String) (modifiers : CodeTree.MemberAttributes)
    (d : CodeTree.MethodDeclaration) :
    (methodMember host owner source name modifiers d).Yields Member.Opens := by
  unfold methodMember
  refine .bind (parameters_yields host d.parameters) fun _ _ => ?_
  refine .bind (attributes_yields host d.returnAttributes) fun _ _ => ?_
  refine .bind (bodyOf_yields host owner _ d.statements) fun _ _ => ?_
  refine .bind (attributes_yields host d.customAttributes) fun _ _ => ?_
  exact .pure (Member.opens_of_ordinary rfl rfl)

theorem constructorMember_opens (d : CodeTree.ConstructorDeclaration) :
    (constructorMember host owner source d).Yields Member.Opens := by
  unfold constructorMember
  dsimp only
  split
  · refine .bind (chainArguments_yields host d.baseArguments) fun _ _ => ?_
    rw [pure_bind]
    refine .bind (stmts_yields host d.statements) fun _ _ => ?_
    refine .bind (parameters_yields host d.parameters) fun _ _ => ?_
    refine .bind (attributes_yields host d.customAttributes) fun _ _ => .pure ?_
    exact Member.opens_of_chain rfl (.inl rfl) rfl
  · refine .bind (chainArguments_yields host d.chainedArguments) fun _ _ => ?_
    rw [pure_bind]
    refine .bind (stmts_yields host d.statements) fun _ _ => ?_
    refine .bind (parameters_yields host d.parameters) fun _ _ => ?_
    refine .bind (attributes_yields host d.customAttributes) fun _ _ => .pure ?_
    exact Member.opens_of_chain rfl (.inr rfl) rfl

theorem eventMember_opens (d : CodeTree.EventDeclaration) :
    (eventMember host owner source d).Yields Member.Opens :=
  .bind (attributes_yields host d.customAttributes) fun _ _ =>
    .pure (Member.opens_of_noMethod rfl)

theorem accessor_opens (declared : Bool) (name : String) {method : Method}
    (statements : List CodeTree.Stmt) (hk : method.isConstructor = false) :
    (accessor host owner source declared name method statements).Yields fun ms =>
      ∀ x ∈ ms, x.Opens := by
  unfold accessor
  split
  · refine .bind (bodyOf_yields host owner method.flags statements) fun _ _ => .pure ?_
    rw [List.forall_mem_singleton]
    exact Member.opens_of_ordinary rfl hk
  · exact .pure fun _ hx => absurd hx List.not_mem_nil

theorem propertyMembers_opens (position : Nat) (d : CodeTree.PropertyDeclaration) :
    (propertyMembers host owner source position d).Yields fun ms => ∀ x ∈ ms, x.Opens := by
  unfold propertyMembers
  refine .bind (parameters_yields host d.parameters) fun _ _ => ?_
  refine .bind (accessor_opens host owner source d.hasGet _ d.getStatements rfl) fun getter hg => ?_
  refine .bind (accessor_opens host owner source d.hasSet _ d.setStatements rfl) fun setter hs => ?_
  refine .bind (attributes_yields host d.customAttributes) fun _ _ => .pure ?_
  rw [List.forall_mem_append, List.forall_mem_append, List.forall_mem_singleton]
  exact ⟨⟨hg, hs⟩, Member.opens_of_noMethod rfl⟩

end

theorem withConstructor_opens (kind : CodeTree.TypeKind) (id : TypeId) {members : List Member}
    (h : ∀ x ∈ members, x.Opens) : ∀ x ∈ withConstructor kind id members, x.Opens := by
  unfold withConstructor
  split
  · rw [List.forall_mem_append, List.forall_mem_singleton]
    exact ⟨h, Member.opens_of_chain rfl (.inl rfl) rfl⟩
  · exact h

mutual

theorem typeDeclaration_opens (ns : String) (outer : Option TypeId) :
    (d : CodeTree.TypeDeclaration) → (typeDeclaration host ns outer d).Opens fun _ => True
  | ⟨name, kind, modifiers, baseTypes, declared, customAttributes, source⟩ => by
      rw [typeDeclaration]
      refine .behind (typeKind_yields host baseTypes kind) fun nodeKind _ => ?_
      refine .behind (attributes_yields host customAttributes) fun attributes _ => ?_
      refine .get fun s => ?_
      refine .bind (.addType rfl) fun id _ => ?_
      split
      · exact .pure trivial
      · refine .bind (members_opens (ownerOf id kind) 0 declared) fun ms hms => ?_
        refine .behind (.emit _) fun _ _ => ?_
        refine .bind (.modifyModule fun m hm => hm.setMembers id ?_) fun _ _ => .pure trivial
        exact withConstructor_opens kind id hms

theorem members_opens (owner : Owner) (position : Nat) : (ds : List CodeTree.Member) →
    (members host owner position ds).Opens fun ms => ∀ x ∈ ms, x.Opens
  | [] => .pure fun _ hx => absurd hx List.not_mem_nil
  | d :: ds => by
      rw [members]
      refine .bind (member_opens owner position d) fun first hf => ?_
      refine .bind (members_opens owner (position + first.length) ds) fun rest hr => .pure ?_
      rw [List.forall_mem_append]
      exact ⟨hf, hr⟩

theorem member_opens (owner : Owner) (position : Nat) : (d : CodeTree.Member) →
    (member host owner position d).Opens fun ms => ∀ x ∈ ms, x.Opens
  | ⟨.unrecognized kind, source⟩ => by
      rw [member]
      refine .behind (.unexpected kind source) fun _ _ => .pure ?_
      exact fun _ hx => absurd hx List.not_mem_nil
  | ⟨.field d, source⟩ => by
      rw [member]
      exact .behind (fieldMember_opens host owner source d) fun _ hx =>
        .pure (List.forall_mem_singleton.mpr hx)
  | ⟨.method d, source⟩ => by
      rw [member]
      exact .behind (methodMember_opens host owner source d.name d.attributes d) fun _ hx =>
        .pure (List.forall_mem_singleton.mpr hx)
  | ⟨.entryPoint d, source⟩ => by
      rw [member]
      exact .behind (methodMember_opens host owner source "Main" .publicStatic d) fun _ hx =>
        .pure (List.forall_mem_singleton.mpr hx)
  | ⟨.constructor d, source⟩ => by
      rw [member]
      exact .behind (constructorMember_opens host owner source d) fun _ hx =>
        .pure (List.forall_mem_singleton.mpr hx)
  | ⟨.property d, source⟩ => by
      rw [member]
      exact .of_yields (propertyMembers_opens host owner source position d)
  | ⟨.event d, source⟩ => by
      rw [member]
      exact .behind (eventMember_opens host owner source d) fun _ hx =>
        .pure (List.forall_mem_singleton.mpr hx)
  | ⟨.snippet text pragma, _⟩ => by
      rw [member]
      refine .behind (.snippetDocument host pragma text) fun _ _ => .pure ?_
      exact List.forall_mem_singleton.mpr (Member.opens_of_noMethod rfl)
  | ⟨.nestedType d, source⟩ => by
      rw [member]
      refine .bind (typeDeclaration_opens "" (some owner.id) d) fun _ _ => .pure ?_
      exact List.forall_mem_singleton.mpr (Member.opens_of_noMethod rfl)

end

theorem references_opens (seen names : List String) :
    (references host seen names).Opens fun _ => True := by
  induction names generalizing seen with
  | nil => exact .pure trivial
  | cons name names ih =>
      rw [references]
      refine .behind (.ask _) fun answer _ => ?_
      split
      · split
        · exact .behind (.emit _) fun _ _ => ih seen
        · exact .bind (.modifyModule fun _ hm => hm) fun _ _ => ih _
      · exact .behind (.emit _) fun _ _ => .behind (.modify fun _ => rfl) fun _ _ => ih seen

theorem unit_opens (tree : CodeTree.CompileUnit) : (unit host tree).Opens fun _ => True := by
  have hnamespace (n : CodeTree.Namespace) : (namespaceNode host n).Opens fun _ => True :=
    .bind (.mapM (typeDeclaration_opens host n.name none) n.types) fun _ _ => .pure trivial
  unfold unit
  refine .get fun s => ?_
  refine .behind (attributes_yields host tree.assemblyAttributes) fun _ _ => ?_
  refine .bind (.modifyModule fun _ hm => hm) fun _ _ => ?_
  refine .get fun s₁ => ?_
  refine .bind (references_opens host _ tree.referencedAssemblies) fun _ _ => ?_
  refine .bind (.mapM hnamespace tree.namespaces) fun namespaces _ => ?_
  dsimp only
  split
  · rw [pure_bind]
    exact .get fun s₂ => .behind (.emit _) fun _ _ => .pure trivial
  · rename_i snippet _
    refine .behind (unitSource_yields host snippet) fun source _ => ?_
    rw [pure_bind]
    exact .get fun s₂ => .behind (.emit _) fun _ _ => .pure trivial

end Lowering

end MiddleEnd
