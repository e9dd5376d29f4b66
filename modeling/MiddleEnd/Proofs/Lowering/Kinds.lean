/-
  What the kind of a type says about its parts. The fields of an enumeration are constants of its
  own type, and no other field has a default. A delegate is sealed and has no members. Enumerations
  and delegates implement nothing. A method goes without a body exactly if it is an instance method
  of an interface, and a constructor always has one. All types that lowering enters are of this
  shape, and a constant has a default value only if its initializer is lowered to a literal
  (`unit_fitsKind`).

  Each member fits the owner that it is lowered for. The kind of the owner is the declared one, and
  the module has the type with this kind for as long as members are lowered (`ownerOf_eq_entry`).
  The position of the owner is known only from the forest of the types that are entered, so the two
  are put together at the end.
-/
import MiddleEnd.Proofs.Lowering.Entering
import MiddleEnd.Proofs.Lowering.Nesting

namespace MiddleEnd

namespace CodeTree

def TypeKind.isEnum : TypeKind → Bool
  | .enumType => true
  | _ => false

def Member.field? : Member → Option FieldDeclaration
  | ⟨.field d, _⟩ => some d
  | _ => none

def TypeDeclaration.fields (d : TypeDeclaration) : List FieldDeclaration :=
  d.members.filterMap Member.field?

mutual

/-- The literal that the expression is. A value that is passed on is its operand. -/
def Expr.constant? : Expr → Option Literal
  | ⟨form, _⟩ => form.constant?

def ExprForm.constant? : ExprForm → Option Literal
  | .primitive value => some (Lowering.literal value)
  | .direction .input operand => operand.constant?
  | _ => none

end

end CodeTree

/-! ## Types of each kind -/

/-- A constant of the enumeration at `id`. -/
structure Field.IsConstantOf (id : TypeId) (f : Field) : Prop where
  isStatic : f.flags.isStatic = true
  literal : f.flags.literal = true
  hasDefault : f.flags.hasDefault = true
  type_eq : f.type = .bound id
  initializer_eq : f.initializer = none

/-- A member of the type at `id`, and what the kind of the type says about it. -/
structure Member.Fits (id : TypeId) (isEnum isInterface : Bool) (x : Member) : Prop where
  owner : x.declaringType = id
  constant : isEnum = true → ∀ f, x.kind = .field f → f.IsConstantOf id
  noDefault : isEnum = false → ∀ f, x.kind = .field f → f.flags.hasDefault = false
  ordinary : ∀ m, x.kind = .method m → m.kind = .ordinary →
    (m.body = none ↔ isInterface = true ∧ m.flags.isStatic = false)
  initializer : ∀ m, x.kind = .method m → m.kind = .instanceInitializer → m.body.isSome = true

namespace TypeNode

def isEnum (t : TypeNode) : Bool :=
  match t.kind with
  | .enumType _ => true
  | _ => false

def isDelegate (t : TypeNode) : Bool :=
  match t.kind with
  | .delegateType _ _ => true
  | _ => false

def fields (t : TypeNode) : List Field := t.members.filterMap Member.field?

/-- The type at `id` is of the shape that its kind asks for. -/
structure FitsKind (id : TypeId) (t : TypeNode) : Prop where
  members : ∀ x ∈ t.members, x.Fits id t.isEnum t.isInterface
  delegate : t.isDelegate = true → t.flags.isSealed = true ∧ t.members = []
  interfaces : t.isEnum = true ∨ t.isDelegate = true → t.interfaces = []

end TypeNode

namespace Lowering

open CodeTree (FieldDeclaration TypeDeclaration)

variable {σ : Type} (host : Host σ)

/-! ## Constants -/

/-- The default value of a constant is the literal that its initializer is lowered to, whatever the
    state. -/
def LowersConstant (d : FieldDeclaration) (f : Field) : Prop :=
  ∀ s, f.defaultValue = (exprOption host d.init s).1.bind Expr.literal?

mutual

theorem expr_literal? : (e : CodeTree.Expr) → (s : LoweringState σ) →
    (expr host e s).1.bind Expr.literal? = e.constant?
  | ⟨form, source⟩, s => by
      rw [expr, CodeTree.Expr.constant?]
      exact exprForm_literal? source form s

theorem exprForm_literal? (source : Option SourceContext) : (form : CodeTree.ExprForm) →
    (s : LoweringState σ) → (exprForm host source form s).1.bind Expr.literal? = form.constant?
  | .direction .input inner, s => by
      rw [exprForm, CodeTree.ExprForm.constant?]
      exact expr_literal? inner s
  | .binary left op right, s => by
      rw [exprForm]
      cases binaryOp? op <;> rfl
  | .fieldRef target name, s | .methodRef target name, s => by
      rw [exprForm]
      cases target <;> rfl
  | .direction .output _, s | .direction .reference _, s => by
      rw [exprForm]
      · rfl
      · exact CodeTree.Direction.noConfusion
  | .primitive _, s | .unrecognized _, s
  | .arrayCreate _ _ _ _, s | .arrayIndexer _ _, s | .indexer _ _, s | .cast _ _, s
  | .delegateCreate _ _ _, s | .delegateInvoke _ _, s | .eventRef _ _, s | .methodInvoke _ _ _, s
  | .objectCreate _ _, s | .propertyRef _ _, s | .argumentRef _, s | .baseRef, s | .setterValue, s
  | .snippet _, s | .thisRef, s | .typeOf _, s | .typeRef _, s | .variableRef _, s => by
      rw [exprForm]
      rfl

end

theorem exprOption_literal? (e : Option CodeTree.Expr) (s : LoweringState σ) :
    (exprOption host e s).1.bind Expr.literal? = e.bind CodeTree.Expr.constant? := by
  cases e with
  | none => rfl
  | some e => exact expr_literal? host e s

/-! ## Members -/

section

variable {id : TypeId} {isEnum isInterface : Bool} {x : Member}

theorem fits_of_field {f : Field} (ho : x.declaringType = id) (hk : x.kind = .field f)
    (hconstant : isEnum = true → f.IsConstantOf id)
    (hdefault : isEnum = false → f.flags.hasDefault = false) : x.Fits id isEnum isInterface := by
  refine ⟨ho, fun he g hg => ?_, fun he g hg => ?_, fun m hm => ?_, fun m hm => ?_⟩
  · cases hk.symm.trans hg
    exact hconstant he
  · cases hk.symm.trans hg
    exact hdefault he
  · cases hk.symm.trans hm
  · cases hk.symm.trans hm

theorem fits_of_method {m : Method} (ho : x.declaringType = id) (hk : x.kind = .method m)
    (hordinary : m.kind = .ordinary →
      (m.body = none ↔ isInterface = true ∧ m.flags.isStatic = false))
    (hinitializer : m.kind = .instanceInitializer → m.body.isSome = true) :
    x.Fits id isEnum isInterface := by
  refine ⟨ho, fun _ f hf => ?_, fun _ f hf => ?_, fun g hg => ?_, fun g hg => ?_⟩
  · cases hk.symm.trans hf
  · cases hk.symm.trans hf
  · cases hk.symm.trans hg
    exact hordinary
  · cases hk.symm.trans hg
    exact hinitializer

/-- Nothing is asked of other members than fields and methods. -/
theorem fits_of_other (ho : x.declaringType = id) (hf : x.field? = none) (hm : x.method? = none) :
    x.Fits id isEnum isInterface := by
  have notField (f : Field) : x.kind ≠ .field f := by
    intro h
    rw [Member.field?, h] at hf
    exact Option.some_ne_none f hf
  have notMethod (m : Method) : x.kind ≠ .method m := by
    intro h
    rw [Member.method?, h] at hm
    exact Option.some_ne_none m hm
  exact ⟨ho, fun _ f h => absurd h (notField f), fun _ f h => absurd h (notField f),
    fun m h => absurd h (notMethod m), fun m h => absurd h (notMethod m)⟩

end

section

variable (owner : Owner) (source : Option SourceContext) (s : LoweringState σ)

theorem fieldMember_fits (d : FieldDeclaration) :
    (fieldMember host owner source d s).1.Fits owner.id owner.isEnum owner.isInterface := by
  obtain ⟨id, isInterface, isEnum⟩ := owner
  cases isEnum with
  | true => exact fits_of_field rfl rfl (fun _ => ⟨rfl, rfl, rfl, rfl, rfl⟩) Bool.noConfusion
  | false => exact fits_of_field rfl rfl Bool.noConfusion fun _ => rfl

theorem bodyOf_eq_none_iff (flags : MethodFlags) (statements : List CodeTree.Stmt) :
    (bodyOf host owner flags statements s).1 = none ↔
      owner.isInterface = true ∧ flags.isStatic = false := by
  have hnone : (bodyOf host owner flags statements s).1.isNone =
      (owner.isInterface && !flags.isStatic) := by
    unfold bodyOf Owner.givesBody
    cases owner.isInterface <;> cases flags.isStatic <;> rfl
  rw [← Option.isNone_iff_eq_none, hnone, Bool.and_eq_true, Bool.not_eq_true']

theorem methodMember_fits (name : String) (modifiers : CodeTree.MemberAttributes)
    (d : CodeTree.MethodDeclaration) :
    (methodMember host owner source name modifiers d s).1.Fits owner.id owner.isEnum
      owner.isInterface :=
  fits_of_method rfl rfl (fun _ => bodyOf_eq_none_iff host owner _ _ d.statements)
    MethodKind.noConfusion

theorem constructorMember_fits (d : CodeTree.ConstructorDeclaration) :
    (constructorMember host owner source d s).1.Fits owner.id owner.isEnum owner.isInterface := by
  rw [constructorMember_eq]
  exact fits_of_method rfl rfl MethodKind.noConfusion fun _ => rfl

theorem defaultConstructor_fits (id : TypeId) (isEnum isInterface : Bool) :
    (defaultConstructor id).Fits id isEnum isInterface :=
  fits_of_method rfl rfl MethodKind.noConfusion fun _ => rfl

theorem accessor_fits (declared : Bool) (name : String) {method : Method}
    (statements : List CodeTree.Stmt) (hk : method.kind = .ordinary) :
    ∀ x ∈ (accessor host owner source declared name method statements s).1,
      x.Fits owner.id owner.isEnum owner.isInterface := by
  cases declared with
  | false => exact List.forall_mem_nil _
  | true =>
      refine List.forall_mem_singleton.mpr (fits_of_method rfl rfl (fun _ => ?_) fun h => ?_)
      · exact bodyOf_eq_none_iff host owner s method.flags statements
      · exact MethodKind.noConfusion (hk.symm.trans h)

theorem propertyMembers_fits (position : Nat) (d : CodeTree.PropertyDeclaration) :
    ∀ x ∈ (propertyMembers host owner source position d s).1,
      x.Fits owner.id owner.isEnum owner.isInterface := by
  unfold propertyMembers
  show ∀ x ∈ (accessor ..).1 ++ (accessor ..).1 ++ [_], _
  refine List.forall_mem_append.mpr ⟨List.forall_mem_append.mpr ⟨?_, ?_⟩, ?_⟩
  · exact accessor_fits host owner source _ _ _ _ rfl
  · exact accessor_fits host owner source _ _ _ _ rfl
  · exact List.forall_mem_singleton.mpr (fits_of_other rfl rfl rfl)

end

theorem member_fits (owner : Owner) (position : Nat) (m : CodeTree.Member) (s : LoweringState σ) :
    ∀ x ∈ (member host owner position m s).1, x.Fits owner.id owner.isEnum owner.isInterface := by
  obtain ⟨form, source⟩ := m
  cases form with
  | unrecognized kind =>
      rw [member]
      exact List.forall_mem_nil _
  | field d =>
      rw [member]
      exact List.forall_mem_singleton.mpr (fieldMember_fits host owner source s d)
  | method d =>
      rw [member]
      exact List.forall_mem_singleton.mpr
        (methodMember_fits host owner source s d.name d.attributes d)
  | entryPoint d =>
      rw [member]
      exact List.forall_mem_singleton.mpr
        (methodMember_fits host owner source s "Main" .publicStatic d)
  | constructor d =>
      rw [member]
      exact List.forall_mem_singleton.mpr (constructorMember_fits host owner source s d)
  | property d =>
      rw [member]
      exact propertyMembers_fits host owner source s position d
  | event d =>
      rw [member]
      exact List.forall_mem_singleton.mpr (fits_of_other rfl rfl rfl)
  | snippet text pragma =>
      rw [member]
      exact List.forall_mem_singleton.mpr (fits_of_other rfl rfl rfl)
  | nestedType d =>
      rw [member]
      exact List.forall_mem_singleton.mpr (fits_of_other rfl rfl rfl)

theorem members_fit (owner : Owner) (position : Nat) (ms : List CodeTree.Member)
    (s : LoweringState σ) : ∀ x ∈ (members host owner position ms s).1,
      x.Fits owner.id owner.isEnum owner.isInterface := by
  induction ms generalizing position s with
  | nil =>
      rw [members]
      exact List.forall_mem_nil _
  | cons m ms ih =>
      rw [members]
      exact List.forall_mem_append.mpr ⟨member_fits host owner position m s, ih _ _⟩

/-- A member becomes a constant of an enumeration exactly if it is declared as a field. -/
theorem member_constants {owner : Owner} (he : owner.isEnum = true) (position : Nat)
    (m : CodeTree.Member) (s : LoweringState σ) :
    List.Forall₂ (LowersConstant host) m.field?.toList
      ((member host owner position m s).1.filterMap Member.field?) := by
  obtain ⟨id, isInterface, isEnum⟩ := owner
  obtain rfl : isEnum = true := he
  obtain ⟨form, source⟩ := m
  cases form with
  | field d =>
      rw [member]
      refine .cons (fun s' => ?_) .nil
      show (exprOption host d.init s).1.bind Expr.literal? = _
      rw [exprOption_literal?, exprOption_literal?]
  | property d =>
      have hnone : (propertyMembers host ⟨id, isInterface, true⟩ source position d s).1.filterMap
          Member.field? = [] := by
        unfold propertyMembers
        show ((accessor ..).1 ++ (accessor ..).1 ++ [_]).filterMap Member.field? = []
        cases d.hasGet <;> cases d.hasSet <;> rfl
      rw [member, hnone]
      exact .nil
  | constructor d =>
      rw [member, constructorMember_eq]
      exact .nil
  | _ =>
      rw [member]
      exact .nil

/-! ## Types -/

/-- The type that a declaration becomes is of the declared kind. An enumeration has one constant for
    each field that it declares, in their order. -/
structure KeepsKind (d : TypeDeclaration) (t : TypeNode) : Prop where
  isEnum : t.isEnum = d.kind.isEnum
  isInterface : t.isInterface = d.kind.isInterface
  isDelegate : t.isDelegate = d.kind.isDelegate
  constants : t.isEnum = true → List.Forall₂ (LowersConstant host) d.fields t.fields

theorem ownerOf_isEnum (id : TypeId) (kind : CodeTree.TypeKind) :
    (ownerOf id kind).isEnum = kind.isEnum := by
  cases kind <;> rfl

theorem ownerOf_id (id : TypeId) (kind : CodeTree.TypeKind) : (ownerOf id kind).id = id := by
  cases kind <;> rfl

theorem isDelegate_of_isEnum {kind : CodeTree.TypeKind} (he : kind.isEnum = true) :
    kind.isDelegate = false := by
  cases kind with
  | enumType => rfl
  | _ => exact Bool.noConfusion he

theorem withConstructor_of_isEnum {kind : CodeTree.TypeKind} (he : kind.isEnum = true) (id : TypeId)
    (ms : List Member) : withConstructor kind id ms = ms := by
  cases kind with
  | enumType => rfl
  | _ => exact Bool.noConfusion he

theorem withConstructor_fits {kind : CodeTree.TypeKind} {id : TypeId} {isEnum isInterface : Bool}
    {ms : List Member} (h : ∀ x ∈ ms, x.Fits id isEnum isInterface) :
    ∀ x ∈ withConstructor kind id ms, x.Fits id isEnum isInterface := by
  unfold withConstructor
  split
  · refine List.forall_mem_append.mpr ⟨h, ?_⟩
    exact List.forall_mem_singleton.mpr (defaultConstructor_fits id isEnum isInterface)
  · exact h

theorem kind_of_heads {d : TypeDeclaration} {t : TypeNode} (h : Heads host d t) :
    t.isEnum = d.kind.isEnum ∧ t.isInterface = d.kind.isInterface ∧
      t.isDelegate = d.kind.isDelegate := by
  obtain ⟨s, hkind⟩ := h.kind
  unfold TypeNode.isEnum TypeNode.isInterface TypeNode.isDelegate
  rw [hkind]
  cases d.kind <;> exact ⟨rfl, rfl, rfl⟩

/-- Whatever members have been lowered since a declaration entered its type, the module still has
    the type where it was entered, with the declared kind. So the owner of the members is what the
    module says of the type at any time. -/
theorem ownerOf_eq_entry {d : TypeDeclaration} {node : TypeNode} (h : Heads host d node)
    {m : Module} {s : LoweringState σ} (hs : s.module = (m.addType node).1) (owner : Owner)
    (position : Nat) (ms : List CodeTree.Member)
    (hsize : (members host owner position ms s).2.module.types.size ≤ UInt32.size) :
    ∃ t, (members host owner position ms s).2.module.type? (m.addType node).2 = some t ∧
      ownerOf (m.addType node).2 d.kind = ⟨(m.addType node).2, t.isInterface, t.isEnum⟩ := by
  have hgains := members_gains host owner position ms s
  have hgrown := hgains.size_eq
  have hid := hgains.id_eq
  obtain ⟨new, hnew, -⟩ := hgains.types hsize
  rw [hs, Module.toList_addType] at hnew
  rw [hs, Module.size_addType] at hgrown
  rw [hs] at hid
  obtain ⟨henum, hinterface, -⟩ := kind_of_heads host h
  refine ⟨node, ?_, ?_⟩
  · rw [Module.addType_id (by omega)]
    refine Module.type?_eq_some.mpr ⟨hid.symm, ?_⟩
    rw [hnew, ← Arena.length_toList, List.append_assoc, List.getElem?_append_right (Nat.le_refl _),
      Nat.sub_self]
    rfl
  · rw [henum, hinterface]
    cases d.kind <;> rfl

section

variable {host} {d : TypeDeclaration} {t : TypeNode} (h : Declares host d t)
include h

theorem keepsKind_of_declares : KeepsKind host d t := by
  obtain ⟨henum, hinterface, hdelegate⟩ := kind_of_heads host h.toHeads
  refine ⟨henum, hinterface, hdelegate, fun he => ?_⟩
  obtain ⟨id, s, hmembers⟩ := h.members
  have hd : d.kind.isEnum = true := henum.symm.trans he
  rw [isDelegate_of_isEnum hd, if_neg Bool.false_ne_true, withConstructor_of_isEnum hd] at hmembers
  unfold TypeDeclaration.fields TypeNode.fields
  rw [hmembers]
  exact members_forall₂ host rfl (fun _ _ => List.filterMap_append)
    (member_constants host ((ownerOf_isEnum id d.kind).trans hd)) 0 d.members s

/-- The members fit an owner that stands where the type stood when they were lowered. -/
theorem members_fit_of_declares : ∃ id, ∀ x ∈ t.members, x.Fits id t.isEnum t.isInterface := by
  have hkind := keepsKind_of_declares h
  obtain ⟨id, s, hmembers⟩ := h.members
  refine ⟨id, ?_⟩
  rw [hmembers, hkind.isEnum, hkind.isInterface]
  split
  · exact List.forall_mem_nil _
  · apply withConstructor_fits
    have hfit := members_fit host (ownerOf id d.kind) 0 d.members s
    rwa [ownerOf_id, ownerOf_isEnum, ownerOf_isInterface] at hfit

/-- That is where it stands if its members say so. -/
theorem fitsKind_of_declares {id : TypeId} (howner : ∀ x ∈ t.members, x.declaringType = id) :
    t.FitsKind id := by
  have hkind := keepsKind_of_declares h
  refine ⟨fun x hx => ?_, fun hd => ?_, fun hboth => ?_⟩
  · obtain ⟨there, hfit⟩ := members_fit_of_declares h
    have hid : there = id := (hfit x hx).owner.symm.trans (howner x hx)
    exact hid ▸ hfit x hx
  · have hd : d.kind.isDelegate = true := hkind.isDelegate.symm.trans hd
    obtain ⟨_, _, hmembers⟩ := h.members
    exact ⟨by rw [h.isSealed, hd, Bool.or_true], by rw [hmembers, if_pos hd]⟩
  · rw [hkind.isEnum, hkind.isDelegate] at hboth
    rw [h.interfaces_eq]
    revert hboth
    cases d.kind <;> simp [interfaces, CodeTree.TypeKind.isEnum, CodeTree.TypeKind.isDelegate]

end

/-- Every type that a unit adds, nested or not, is of the shape that its kind asks for, and it is of
    the kind that is declared. -/
theorem unit_fitsKind (u : CodeTree.CompileUnit) (s : LoweringState σ)
    (hs : (unit host u s).2.module.types.size ≤ UInt32.size) :
    ∃ new, (unit host u s).2.module.types.toList = s.module.types.toList ++ new ∧
      (∀ (i : Nat) (t : TypeNode), new[i]? = some t →
        t.FitsKind ⟨s.module.id, ⟨s.module.types.size + i⟩⟩) ∧
      List.Forall₂ (KeepsKind host) u.entered new := by
  obtain ⟨new, hnew, hall⟩ := (unit_gains host u s).types hs
  obtain ⟨_, henters, -⟩ := unit_enters host u s
  obtain ⟨entered, hadds, -⟩ := henters.adds hs fun o ho =>
    absurd ho.symm (Option.some_ne_none o)
  obtain rfl : entered = new := List.append_cancel_left (hadds.types_eq.symm.trans hnew)
  refine ⟨entered, hnew, fun i t ht => ?_, hall.imp fun _ _ h => keepsKind_of_declares h⟩
  obtain ⟨hi, rfl⟩ := List.getElem?_eq_some_iff.mp ht
  have hdeclares := hall.get (by rwa [hall.length_eq]) hi
  exact fitsKind_of_declares hdeclares (hadds.forest.filled ht).owner

def constant (name : String) (init : Option CodeTree.Expr) : CodeTree.Member :=
  (CodeTree.MemberForm.field { name, type := Sample.int32, init }).node

/-- Colors by number. The second has no number, and that of the third is not a literal. -/
def color : TypeDeclaration where
  name := "Color"
  kind := .enumType
  baseTypes := [.named "System.Byte"]
  members := [
    constant "Red" (some (CodeTree.ExprForm.direction .input
      (CodeTree.ExprForm.primitive (.int32 1)).node).node),
    constant "Green" none,
    constant "Blue" (some (Sample.ownField "Red"))]

/-- A brush with its colors in it, what can be painted, and a delegate that is not declared as
    sealed and has members. -/
def paintShop : CodeTree.CompileUnit :=
  Sample.unitWith "Paint" [
    { Sample.classNamed "Brush" with members := [
      (CodeTree.MemberForm.field Sample.balance).node,
      (CodeTree.MemberForm.nestedType color).node] },
    { name := "IPaintable", kind := .interfaceType, members := [
      (CodeTree.MemberForm.method { name := "Paint", attributes := Sample.publicMethod }).node,
      (CodeTree.MemberForm.method { name := "Mix", attributes := .publicStatic }).node] },
    { name := "Stroke", kind := .delegateType [] none, baseTypes := [.named "Paint.IPaintable"],
      members := [(CodeTree.MemberForm.field Sample.balance).node] }]

theorem unit_fitsKind_paintShop :
    paintShop.entered.map (·.name) = ["Brush", "Color", "IPaintable", "Stroke"] ∧
    (unit AssemblyTable.host paintShop besideGuard).2.module.types.size = 5 ∧
    ((unit AssemblyTable.host paintShop besideGuard).2.module.type? ⟨⟨0⟩, ⟨2⟩⟩).map
      (fun t => t.fields.map (·.defaultValue)) = some [some (.int32 1), none, none] ∧
    ∃ new, (unit AssemblyTable.host paintShop besideGuard).2.module.types.toList =
        besideGuard.module.types.toList ++ new ∧
      (∀ (i : Nat) (t : TypeNode), new[i]? = some t → t.FitsKind ⟨⟨0⟩, ⟨1 + i⟩⟩) ∧
      List.Forall₂ (KeepsKind AssemblyTable.host) paintShop.entered new := by
  have hsize : (unit AssemblyTable.host paintShop besideGuard).2.module.types.size = 5 := by
    decide +kernel
  refine ⟨by decide +kernel, hsize, by decide +kernel, ?_⟩
  exact unit_fitsKind AssemblyTable.host paintShop besideGuard (by rw [hsize]; decide)

end Lowering

end MiddleEnd
