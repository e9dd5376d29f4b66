/-
  Constructors. Every class gets one: the constructors that it declares or, if it declares none, one
  that takes nothing and calls that of the base. No other type gets a constructor that it does not
  declare. A declared constructor starts with the call of another one and goes on with its own
  statements (`unit_constructs`). Members of a delegate are dropped, constructors among them
  (`signal_loses_constructor`).

  The call passes the declared arguments on, but an argument that cannot be read drops out instead
  of leaving a hole. So the arguments are in their places exactly if all of them can be read
  (`passedOn_in_place_iff`).
-/
import Mathlib.Data.List.ReduceOption
import MiddleEnd.Proofs.Lowering.Entering
import MiddleEnd.Proofs.Lowering.Holes
import MiddleEnd.Proofs.Lowering.Nesting

namespace MiddleEnd

namespace CodeTree

def Member.constructor? : Member → Option ConstructorDeclaration
  | ⟨.constructor d, _⟩ => some d
  | _ => none

def TypeDeclaration.constructors (d : TypeDeclaration) : List ConstructorDeclaration :=
  d.members.filterMap Member.constructor?

end CodeTree

/-! ## Arguments of the chain call -/

/-- The arguments of the call that a statement is. -/
def Stmt.callArguments? (s : Stmt) : Option (List Expr) :=
  match s.form with
  | .expression ⟨.call _ arguments, _, _⟩ => some arguments
  | _ => none

/-- The arguments of the call that a method starts with. -/
def Member.passedOn? (x : Member) : Option (List Expr) := do
  let method ← x.method?
  let body ← method.body
  let first ← body.block.statements.head?
  first.callArguments?

namespace Lowering

open CodeTree (ConstructorDeclaration TypeDeclaration)

variable {σ : Type} (host : Host σ)

/-- Arguments of a chain call are what the expressions become, without the gaps. -/
theorem chainArguments_eq (es : List CodeTree.Expr) :
    chainArguments host es = es.mapM (expr host) >>= fun rs => pure rs.reduceOption := by
  induction es with
  | nil => rfl
  | cons e es ih =>
      rw [chainArguments, ih, List.mapM_cons]
      simp only [bind_assoc, pure_bind]
      congr
      funext r
      cases r <;> rfl

theorem mapM_expr_isNone (es : List CodeTree.Expr) :
    Lower.Yields (es.mapM (expr host)) fun rs =>
      rs.map Option.isNone = es.map CodeTree.Expr.unreadable := by
  induction es with
  | nil => exact .pure rfl
  | cons e es ih =>
      rw [List.mapM_cons]
      refine .bind (expr_readAs host e) fun r hr => .bind ih fun rs hrs => .pure ?_
      rw [List.map_cons, List.map_cons, hr.isNone_eq, hrs]

/-- Leaving gaps out and filling them come to the same exactly if there are none. -/
theorem reduceOption_eq_map_getD_iff {α : Type} {filler : α} {rs : List (Option α)} :
    rs.reduceOption = rs.map (·.getD filler) ↔ ∀ r ∈ rs, r.isSome = true := by
  constructor
  · intro h
    rw [← List.reduceOption_length_eq_iff, h, List.length_map]
  · intro h
    induction rs with
    | nil => rfl
    | cons r rs ih =>
        obtain ⟨hr, hrs⟩ := List.forall_mem_cons.mp h
        obtain ⟨a, rfl⟩ := Option.isSome_iff_exists.mp hr
        rw [List.reduceOption_cons_of_some, ih hrs]
        rfl

theorem mapM_expr_isSome_iff (es : List CodeTree.Expr) (s : LoweringState σ) :
    (∀ r ∈ (es.mapM (expr host) s).1, r.isSome = true) ↔ ∀ e ∈ es, e.unreadable = false := by
  have hmap := (mapM_expr_isNone host es s).1
  calc (∀ r ∈ (es.mapM (expr host) s).1, r.isSome = true)
    _ ↔ ∀ b ∈ (es.mapM (expr host) s).1.map Option.isNone, b = false := by simp
    _ ↔ ∀ e ∈ es, e.unreadable = false := by rw [hmap]; simp

/-- A constructor passes on what its arguments become, except for those that cannot be read. Each
    stands in its place, with holes for those, exactly if there are none of those. -/
theorem passedOn_in_place_iff (owner : Owner) (source : Option SourceContext)
    (d : ConstructorDeclaration) (s : LoweringState σ) :
    (constructorMember host owner source d s).1.passedOn? =
      some (d.passedOn.mapM (expr host) s).1.reduceOption ∧
    ((constructorMember host owner source d s).1.passedOn? =
        some ((d.passedOn.mapM (expr host) s).1.map (·.getD .missing)) ↔
      ∀ e ∈ d.passedOn, e.unreadable = false) := by
  have hpassed : (constructorMember host owner source d s).1.passedOn? =
      some (d.passedOn.mapM (expr host) s).1.reduceOption := by
    rw [constructorMember_eq, chainArguments_eq]
    rfl
  refine ⟨hpassed, ?_⟩
  rw [hpassed, Option.some_inj, reduceOption_eq_map_getD_iff, mapM_expr_isSome_iff]

/-- `base(?, 1)`, where the first argument is of unknown shape. -/
def tornConstructor : ConstructorDeclaration where
  attributes := Sample.publicMethod
  baseArguments := [(CodeTree.ExprForm.unrecognized "AwaitExpression").node,
    (CodeTree.ExprForm.primitive (.int32 1)).node]

/-- What should be the second argument is passed on as the first. -/
theorem tornConstructor_shifts :
    (constructorMember AssemblyTable.host ⟨⟨⟨0⟩, ⟨1⟩⟩, false, false⟩ none tornConstructor
      besideGuard).1.passedOn? = some [.literal (.int32 1)] ∧
    (constructorMember AssemblyTable.host ⟨⟨⟨0⟩, ⟨1⟩⟩, false, false⟩ none tornConstructor
      besideGuard).1.passedOn? ≠
        some ((tornConstructor.passedOn.mapM (expr AssemblyTable.host) besideGuard).1.map
          (·.getD .missing)) := by
  refine ⟨rfl, fun h => ?_⟩
  have hlength := congrArg (Option.map List.length) h
  exact absurd hlength (by decide)

/-! ## Constructors of a type -/

/-- The constructors among members. -/
def constructorsOf (members : List Member) : List Method :=
  (members.filterMap Member.method?).filter Method.isConstructor

theorem constructorsOf_append (first rest : List Member) :
    constructorsOf (first ++ rest) = constructorsOf first ++ constructorsOf rest := by
  rw [constructorsOf, List.filterMap_append, List.filter_append]
  rfl

/-- A public constructor that takes nothing and only calls that of the base. -/
structure IsDefault (m : Method) : Prop where
  kind : m.kind = .instanceInitializer
  flags : m.flags.visibility = .publicMember ∧ m.flags.hasThis = true ∧ m.flags.isStatic = false
  parameters : m.parameters = []
  body : m.body = some { block := { statements := [chainCall .baseRef []] } }

/-- One chain call, on the object at hand if there are arguments for it and else on the base, and
    then the declared statements. -/
def constructorStatements (d : ConstructorDeclaration) : Lower σ (List Stmt) := do
  let arguments ← chainArguments host d.passedOn
  let statements ← stmts host d.statements
  return chainCall (if d.chainedArguments = [] then .baseRef else .thisRef) arguments :: statements

/-- The constructor that a declaration becomes; its statements are lowered in some state that the
    lowering came to. -/
structure LowersConstructor (d : ConstructorDeclaration) (m : Method) : Prop where
  kind : m.kind = .instanceInitializer
  flags : m.flags.specialName = true ∧ m.flags.rtSpecialName = true
  body : ∃ s, m.body = some { block := { statements := (constructorStatements host d s).1 } }

theorem constructorMember_lowers (owner : Owner) (source : Option SourceContext)
    (d : ConstructorDeclaration) (s : LoweringState σ) :
    ∃ m, (constructorMember host owner source d s).1.kind = .method m ∧
      LowersConstructor host d m := by
  rw [constructorMember_eq]
  refine ⟨_, rfl, rfl, ⟨rfl, rfl⟩, s, ?_⟩
  unfold constructorStatements
  cases d.chainedArguments <;> rfl

theorem accessor_constructorsOf (owner : Owner) (source : Option SourceContext) (declared : Bool)
    (name : String) {method : Method} (statements : List CodeTree.Stmt) (s : LoweringState σ)
    (hk : method.isConstructor = false) :
    constructorsOf (accessor host owner source declared name method statements s).1 = [] := by
  cases declared with
  | true => exact List.filter_cons_of_neg fun h => Bool.false_ne_true (hk.symm.trans h)
  | false => rfl

theorem propertyMembers_constructorsOf (owner : Owner) (source : Option SourceContext)
    (position : Nat) (d : CodeTree.PropertyDeclaration) (s : LoweringState σ) :
    constructorsOf (propertyMembers host owner source position d s).1 = [] := by
  unfold propertyMembers
  show constructorsOf ((accessor ..).1 ++ (accessor ..).1 ++ [_]) = []
  rw [constructorsOf_append, constructorsOf_append, accessor_constructorsOf _ _ _ _ _ _ _ rfl,
    accessor_constructorsOf _ _ _ _ _ _ _ rfl]
  rfl

/-- A member becomes a constructor exactly if it is declared as one. -/
theorem member_constructors (owner : Owner) (position : Nat) (m : CodeTree.Member)
    (s : LoweringState σ) :
    List.Forall₂ (LowersConstructor host) m.constructor?.toList
      (constructorsOf (member host owner position m s).1) := by
  obtain ⟨form, source⟩ := m
  cases form with
  | constructor d =>
      obtain ⟨method, hkind, hlowers⟩ := constructorMember_lowers host owner source d s
      have hone : constructorsOf [(constructorMember host owner source d s).1] = [method] := by
        simp [constructorsOf, Member.method?, hkind, Method.isConstructor, hlowers.kind]
      rw [member]
      exact hone ▸ .cons hlowers .nil
  | property d =>
      rw [member, propertyMembers_constructorsOf]
      exact .nil
  | field d =>
      -- an enumeration lowers its fields in a way of its own
      obtain ⟨_, _, isEnum⟩ := owner
      rw [member]
      cases isEnum <;> exact .nil
  | _ =>
      rw [member]
      exact .nil

theorem members_constructors (owner : Owner) (position : Nat) (ms : List CodeTree.Member)
    (s : LoweringState σ) :
    List.Forall₂ (LowersConstructor host) (ms.filterMap CodeTree.Member.constructor?)
      (constructorsOf (members host owner position ms s).1) :=
  members_forall₂ host rfl constructorsOf_append (member_constructors host owner) position ms s

theorem constructorsOf_eq_nil_iff {members : List Member} :
    constructorsOf members = [] ↔ members.any isConstructor = false := by
  simp only [constructorsOf, List.filter_eq_nil_iff, List.mem_filterMap, List.any_eq_false]
  constructor
  · intro h x hx
    unfold isConstructor
    split
    · rename_i m hm
      exact h m ⟨x, hx, hm⟩
    · exact Bool.false_ne_true
  · rintro h m ⟨x, hx, hm⟩
    have hconstructor := h x hx
    simpa only [isConstructor, hm] using hconstructor

theorem withConstructor_of_none {members : List Member} (id : TypeId)
    (h : constructorsOf members = []) :
    withConstructor .classType id members = members ++ [defaultConstructor id] := by
  rw [withConstructor, constructorsOf_eq_nil_iff.mp h]
  rfl

theorem withConstructor_of_declared {kind : CodeTree.TypeKind} {members : List Member} (id : TypeId)
    (h : kind = .classType → constructorsOf members ≠ []) :
    withConstructor kind id members = members := by
  refine if_neg fun hboth => ?_
  obtain ⟨hclass, hany⟩ := Bool.and_eq_true_iff.mp hboth
  have hkind : kind = .classType := by cases kind <;> trivial
  exact h hkind (constructorsOf_eq_nil_iff.mpr (by simpa using hany))

theorem typeKind_eq_classType_iff (baseTypes : List CodeTree.TypeReference)
    (kind : CodeTree.TypeKind) (s : LoweringState σ) :
    (typeKind host baseTypes kind s).1 = .classType ↔ kind = .classType := by
  cases kind with
  | classType => exact iff_of_true rfl rfl
  | _ => exact iff_of_false TypeKind.noConfusion CodeTree.TypeKind.noConfusion

/-- The constructors of a declared type. -/
structure Constructs (d : TypeDeclaration) (t : TypeNode) : Prop where
  isClass : t.kind = .classType ↔ d.kind = .classType
  nonempty : t.kind = .classType → t.constructors ≠ []
  /-- A class without a declared constructor ends with a default one and has no other. -/
  default : d.kind = .classType → d.constructors = [] →
    ∃ first x m, t.members = first ++ [x] ∧ x.method? = some m ∧ IsDefault m ∧ t.constructors = [m]
  /-- Else the constructors are the declared ones, one for one and in their order. -/
  declared : d.kind.isDelegate = false → (d.kind = .classType → d.constructors ≠ []) →
    List.Forall₂ (LowersConstructor host) d.constructors t.constructors
  delegate : d.kind.isDelegate = true → t.members = []

section

variable {host} {d : TypeDeclaration} {t : TypeNode} (h : Declares host d t)
include h

theorem default_of_declares (hc : d.kind = .classType) (hnone : d.constructors = []) :
    ∃ first x m, t.members = first ++ [x] ∧ x.method? = some m ∧ IsDefault m ∧
      t.constructors = [m] := by
  obtain ⟨-, id, s, hmembers⟩ := h
  have hempty : constructorsOf (members host (ownerOf id d.kind) 0 d.members s).1 = [] := by
    have hlowered := members_constructors host (ownerOf id d.kind) 0 d.members s
    rw [TypeDeclaration.constructors] at hnone
    rwa [hnone, List.forall₂_nil_left_iff] at hlowered
  rw [hc] at hmembers hempty
  have htype : t.members = _ := hmembers.trans (withConstructor_of_none id hempty)
  refine ⟨_, defaultConstructor id, _, htype, rfl, ⟨rfl, ⟨rfl, rfl, rfl⟩, rfl, rfl⟩, ?_⟩
  show constructorsOf t.members = _
  rw [htype, constructorsOf_append, hempty]
  rfl

theorem declared_of_declares (hd : d.kind.isDelegate = false)
    (hsome : d.kind = .classType → d.constructors ≠ []) :
    List.Forall₂ (LowersConstructor host) d.constructors t.constructors := by
  obtain ⟨-, id, s, hmembers⟩ := h
  have hlowered := members_constructors host (ownerOf id d.kind) 0 d.members s
  rw [hd, if_neg Bool.false_ne_true, withConstructor_of_declared] at hmembers
  · show List.Forall₂ _ _ (constructorsOf t.members)
    rw [hmembers]
    exact hlowered
  · intro hc hempty
    rw [hempty, List.forall₂_nil_right_iff] at hlowered
    exact hsome hc hlowered

theorem constructs_of_declares : Constructs host d t := by
  have hclass : t.kind = .classType ↔ d.kind = .classType := by
    obtain ⟨s, hkind⟩ := h.kind
    rw [hkind]
    exact typeKind_eq_classType_iff host d.baseTypes d.kind s
  refine ⟨hclass, fun hc hempty => ?_, default_of_declares h, declared_of_declares h, fun hd => ?_⟩
  · have hc := hclass.mp hc
    by_cases hnone : d.constructors = []
    · obtain ⟨_, _, m, -, -, -, hone⟩ := default_of_declares h hc hnone
      exact List.cons_ne_nil m [] (hone.symm.trans hempty)
    · have hall := declared_of_declares h (by rw [hc]; rfl) fun _ => hnone
      rw [hempty, List.forall₂_nil_right_iff] at hall
      exact hnone hall
  · obtain ⟨id, s, hmembers⟩ := h.members
    rw [hmembers, if_pos hd]

end

/-- Every type that a unit adds, nested or not, gets its constructors. -/
theorem unit_constructs (u : CodeTree.CompileUnit) (s : LoweringState σ)
    (hs : (unit host u s).2.module.types.size ≤ UInt32.size) :
    ∃ new, (unit host u s).2.module.types.toList = s.module.types.toList ++ new ∧
      List.Forall₂ (Constructs host) u.entered new := by
  obtain ⟨new, hnew, hall⟩ := (unit_gains host u s).types hs
  exact ⟨new, hnew, hall.imp fun _ _ h => constructs_of_declares h⟩

/-- A delegate that declares a constructor. -/
def signal : TypeDeclaration where
  name := "Signal"
  kind := .delegateType [] none
  attributes := .publicType
  members := [(CodeTree.MemberForm.constructor { attributes := Sample.publicMethod }).node]

/-- An account with two constructors, one of which calls the other, and in it a lock without any;
    beside it the delegate. -/
def accountWithLock : CodeTree.CompileUnit :=
  Sample.unitWith "Bank" [
    { Sample.classNamed "Account" with members := [
      (CodeTree.MemberForm.constructor {
        attributes := Sample.publicMethod
        chainedArguments := [(CodeTree.ExprForm.primitive (.int32 0)).node] }).node,
      (CodeTree.MemberForm.nestedType (Sample.classNamed "Lock")).node,
      (CodeTree.MemberForm.constructor {
        attributes := Sample.publicMethod
        parameters := [{ name := "balance", type := Sample.int32 }] }).node] },
    signal]

theorem unit_constructs_accountWithLock :
    accountWithLock.entered.map (fun d => (d.name, d.constructors.length)) =
      [("Account", 2), ("Lock", 0), ("Signal", 1)] ∧
    (unit AssemblyTable.host accountWithLock besideGuard).2.module.types.size = 4 ∧
    ∃ new, (unit AssemblyTable.host accountWithLock besideGuard).2.module.types.toList =
        besideGuard.module.types.toList ++ new ∧
      List.Forall₂ (Constructs AssemblyTable.host) accountWithLock.entered new := by
  have hsize : (unit AssemblyTable.host accountWithLock besideGuard).2.module.types.size = 4 := by
    decide +kernel
  exact ⟨by decide +kernel, hsize,
    unit_constructs AssemblyTable.host accountWithLock besideGuard (by rw [hsize]; decide)⟩

/-- The constructor of the delegate is not lowered. -/
theorem signal_loses_constructor :
    signal.constructors.length = 1 ∧
    ((unit AssemblyTable.host accountWithLock besideGuard).2.module.type? ⟨⟨0⟩, ⟨3⟩⟩).map
      (fun t => (t.name, t.constructors.length)) = some ("Signal", 0) := by
  decide +kernel

end Lowering

end MiddleEnd
