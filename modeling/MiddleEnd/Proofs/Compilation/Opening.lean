/-
  What the constructors of a compiled tree open with. Lowering gives every constructor a chain call
  to open with, and binding and contracts leave it there, so the constructors of a tree that no pass
  has been over open with a chain call. Guards may wrap the callee, if a field is called like a
  constructor, and elimination takes the statement out if a dead call stands in its arguments. What
  a constructor opens with behind all passes is told by its body before them
  (`constructors_open_iff`); it may be nothing at all (`peeking_constructor_empty`).
-/
import MiddleEnd.Proofs.Binding.Opening
import MiddleEnd.Proofs.Pass.Contracts
import MiddleEnd.Proofs.Pipeline.Opening

namespace MiddleEnd

open Pipeline (OpensBehind callGoes shieldsIf goesOn)
open Universe (Holds)

/-! ## Constructors -/

section

variable {named named' : MemberRef → Bool} (h : ∀ ref, named ref = true → named' ref = true)

include h

theorem Expr.namesConstructor_mono {e : Expr} (he : e.namesConstructor named = true) :
    e.namesConstructor named' = true := by
  obtain ⟨form, type, source⟩ := e
  cases form with
  | qualified receiver name => exact he
  | member receiver ref =>
      cases receiver with
      | none => exact he
      | some receiver =>
          obtain ⟨hself, hname⟩ := Bool.and_eq_true_iff.mp he
          exact Bool.and_eq_true_iff.mpr ⟨hself, h ref hname⟩
  | _ => exact absurd he Bool.false_ne_true

theorem Stmt.isChainCall_mono {s : Stmt} (hs : s.isChainCall named = true) :
    s.isChainCall named' = true := by
  obtain ⟨form, source⟩ := s
  cases form with
  | expression e =>
      obtain ⟨form, type, source⟩ := e
      cases form with
      | call callee arguments => exact Expr.namesConstructor_mono h hs
      | _ => exact absurd hs Bool.false_ne_true
  | _ => exact absurd hs Bool.false_ne_true

theorem Body.opens_mono {body : Body} (hb : body.opens named = true) :
    body.opens named' = true := by
  obtain ⟨s, hs, hchain⟩ := (Option.any_eq_true _ _).mp hb
  exact (Option.any_eq_true _ _).mpr ⟨s, hs, Stmt.isChainCall_mono h hchain⟩

end

namespace Universe

variable {u u' : Universe}

theorem isConstructorName_eq_true {ref : MemberRef} :
    u.isConstructorName ref = true ↔
      ∃ x, u.member ref = .ok x ∧ x.name = Lowering.constructorName := by
  unfold isConstructorName
  rcases u.member ref with e | x
  · simp
  · simp

theorem isConstructorName_of_layout (h : u'.layout = u.layout) :
    u'.isConstructorName = u.isConstructorName := by
  have hnames : ∀ {u u' : Universe}, u'.layout = u.layout → ∀ ref,
      u'.isConstructorName ref = true → u.isConstructorName ref = true := by
    intro u u' h ref href
    obtain ⟨x, hx, hname⟩ := isConstructorName_eq_true.mp href
    obtain ⟨x', hx', hskeleton⟩ := member_of_layout h hx
    refine isConstructorName_eq_true.mpr ⟨x', hx', ?_⟩
    rw [← hname, ← x'.name_skeleton, ← hskeleton, x.name_skeleton]
  funext ref
  exact Bool.eq_iff_iff.mpr ⟨hnames h ref, hnames h.symm ref⟩

end Universe

/-- A constructor has a body that opens with a chain call. -/
def ConstructorOpens (outline : Universe) (_ : MemberRef) (m : Method) : Prop :=
  m.isConstructor = true →
    ∃ body, m.body = some body ∧ body.opens outline.isConstructorName = true

/-- A method of a module whose constructors open with chain calls. -/
theorem Member.Opens.constructorOpens {x : Member} (h : x.Opens) {m : Method}
    (hm : x.method? = some m) (outline : Universe) (ref : MemberRef) :
    ConstructorOpens outline ref m := by
  intro hc
  obtain ⟨body, hb, hopens⟩ := h m hm hc
  exact ⟨body, hb, Body.opens_mono (fun _ h => absurd h Bool.false_ne_true) hopens⟩

theorem coreModule_opens : coreModule.Opens := by
  intro t ht x hx
  obtain rfl := List.mem_singleton.mp ht
  have hchecks : x ∈ [coreCheck ⟨⟨0⟩, ⟨0⟩⟩ WellKnown.readingName,
      coreCheck ⟨⟨0⟩, ⟨0⟩⟩ WellKnown.writingName] := hx
  rw [List.mem_cons, List.mem_singleton] at hchecks
  rcases hchecks with rfl | rfl <;> exact Member.opens_of_ordinary rfl rfl

theorem besideCore_opens {m : Module} (h : m.Opens) (ref : MemberRef) :
    Holds ConstructorOpens (besideCore m) ref := by
  intro method hmethod
  obtain ⟨x, hx, hm⟩ := Universe.method_eq_ok.mp hmethod
  obtain ⟨node, hn, hat⟩ := Universe.member_eq_ok.mp hx
  obtain ⟨found, hfound, hnode⟩ := Universe.mem_types_of_type (Universe.type_eq_ok.mpr hn)
  have hopens : found.Opens := by
    have hor : found = coreModule ∨ found = m := by simpa [besideCore, Arena.toList] using hfound
    rcases hor with rfl | rfl
    · exact coreModule_opens
    · exact h
  exact (hopens node hnode x (List.mem_of_getElem? hat)).constructorOpens hm _ ref

theorem Compilation.lower_opens (tree : CodeTree.CompileUnit) (ref : MemberRef) :
    Holds ConstructorOpens (lower tree).types ref := by
  have hempty : ({ id := ⟨1⟩, name := "App" } : Module).Opens := fun _ ht =>
    absurd ht List.not_mem_nil
  exact besideCore_opens (Lowering.unit_opens AssemblyTable.host tree
    { module := _, errors := [], trace := [], host := AssemblyTable.standard } hempty).1 ref

theorem Binding.keeps_constructorOpens : Binding.reviser.Keeps ConstructorOpens := by
  intro outline ref m r hr h hc
  obtain ⟨body, hb, hopens⟩ := h hc
  obtain ⟨body', hedited, hb'⟩ := Reviser.body_of_ofBodies hr hb
  obtain rfl := Option.some.inj hedited
  exact ⟨_, hb', opens_bound ref 0 hopens⟩

/-- Contracts leave members alone. -/
theorem Contracts.Equips.constructorOpens {guard : TypeId} {types : List TypeId} {u u' : Universe}
    (h : Equips guard types u u') {ref : MemberRef} (hu : Holds ConstructorOpens u ref) :
    Holds ConstructorOpens u' ref := by
  have hmember : ∀ ref x, u'.member ref = .ok x ↔ u.member ref = .ok x := by
    intro ref x
    rw [Universe.member_eq_ok, Universe.member_eq_ok, h.type?]
    rcases u.type? ref.type with _ | node
    · simp
    · simp [equip]
  have hnames : u'.isConstructorName = u.isConstructorName := by
    funext ref
    rw [Bool.eq_iff_iff, Universe.isConstructorName_eq_true, Universe.isConstructorName_eq_true]
    simp only [hmember]
  intro m hm hc
  obtain ⟨x, hx, hmethod⟩ := Universe.method_eq_ok.mp hm
  obtain ⟨body, hb, hopens⟩ :=
    hu m (Universe.method_eq_ok.mpr ⟨x, (hmember ref x).mp hx, hmethod⟩) hc
  rw [Universe.isConstructorName_outline] at hopens ⊢
  exact ⟨body, hb, by rw [hnames]; exact hopens⟩

/-! ## The way of a tree -/

namespace Compilation

variable {u : Universe} {w : WellKnown} {unit : CompilationUnit}

/-- Behind lowering comes a universe in which all is bound and described; the passes start from it,
    whichever they are. -/
theorem finish_ends (trace : Trace) (hu : u.Closed) (hw : WellKnown.ofUniverse u = .ok w)
    (ht : ∀ id ∈ unit.root.allTypes, u.HasType id) :
    ∃ bound v, u.reviseUnit Binding.reviser unit.root.allTypes = some bound ∧
      Contracts.Equips w.guardType unit.root.allTypes bound v ∧
      ∀ config errors, (finish config unit errors).Ends ⟨(), u, trace⟩
        (Pipeline.outcome config w errors unit.symbols unit.root.allTypes v) fun _ => True := by
  obtain ⟨_, s₁, hbinding, hfits⟩ :=
    (Binding.pass_sound u.layout).editUnit (s := ⟨0, u, trace⟩) ⟨hu, rfl⟩ ht
  have hends : (Binding.pass.editUnit unit).Ends ⟨0, u, trace⟩
      (u.reviseUnit Binding.reviser unit.root.allTypes) _ := Binding.pass_revises.editUnit trivial
  unfold PassM.Ends at hends
  rw [hbinding] at hends
  have hbound : (withState 0 (Binding.pass.editUnit unit)).run ⟨(), u, trace⟩ =
      (.ok (), ⟨(), s₁.types, s₁.trace⟩) := by
    show (((Binding.pass.editUnit unit).run ⟨0, u, trace⟩).1,
      (⟨(), ((Binding.pass.editUnit unit).run ⟨0, u, trace⟩).2.types,
        ((Binding.pass.editUnit unit).run ⟨0, u, trace⟩).2.trace⟩ : PassState Unit)) = _
    rw [hbinding]
  have hinstall : (Contracts.install unit w.guardType).Runs ⟨(), s₁.types, s₁.trace⟩ fun _ s' =>
      Contracts.Equips w.guardType unit.root.allTypes s₁.types s'.types :=
    Contracts.install_equips fun id hid =>
      Universe.hasType_of_layout hfits.layout_eq.symm (ht id hid)
  obtain ⟨count, s₂, hinstalled, hequips⟩ := hinstall
  refine ⟨s₁.types, s₂.types, hends.1, hequips, fun config errors => ?_⟩
  unfold finish
  refine .get (.ofExcept hw (.step hbound (.step hinstalled ?_)))
  exact .onPart (.mono (Pipeline.run_ends ⟨rfl, rfl, rfl⟩) fun _ _ => trivial)

/-- A tree whose constructors all open with chain calls goes into the passes, and what they make of
    it is what a compilation returns. -/
theorem compileWith_outcome (tree : CodeTree.CompileUnit) :
    ∃ w u, (∀ ref, Holds ConstructorOpens u ref) ∧
      ∀ config, ∃ c methods, compileWith config tree = .ok c ∧
        c.types.layout = (lower tree).types.layout ∧ c.types.unitMethods c.unit = .ok methods ∧
        Pipeline.outcome config w c.errors c.unit.symbols c.unit.root.allTypes u =
          some c.types := by
  obtain ⟨m, hfresh, hid, hu, htypes⟩ := lower_besideCore tree
  obtain ⟨w, hw⟩ := wellKnown_besideCore m
  have huniverse : (besideCore m).Fresh := besideCore_fresh hfresh hid
  have hclosed : (besideCore m).Closed := Universe.closed_of_fresh huniverse
  have hmodule : (besideCore m).module? ⟨1⟩ = some m := rfl
  have hlisted : ∀ id ∈ (lower tree).unit.root.allTypes, (besideCore m).HasType id :=
    fun id hid => Universe.hasType_of_module huniverse hmodule (htypes id hid)
  rw [← hu] at hw hclosed hlisted
  obtain ⟨bound, v, hbound, hequips, hends⟩ := finish_ends (lower tree).trace hclosed hw hlisted
  refine ⟨w, v, fun ref => ?_, fun config => ?_⟩
  · obtain ⟨refs, -, hrevised⟩ := Universe.reviseUnit_eq_some.mp hbound
    exact hequips.constructorOpens
      ((lower_opens tree ref).reviseAll Binding.keeps_constructorOpens hrevised)
  · obtain ⟨passes, s, hrun, hfits⟩ :=
      finish_runs config (lower tree).errors (lower tree).trace hclosed hw hlisted
    have hend := hends config (lower tree).errors
    unfold PassM.Ends at hend
    rw [hrun] at hend
    obtain ⟨methods, hmethods, -⟩ := hfits.closed.unitMethods_ok fun id hid =>
      Universe.hasType_of_layout hfits.layout_eq.symm (hlisted id hid)
    refine ⟨{ lower tree with types := s.types, passes, trace := s.trace }, methods, ?_,
      hfits.layout_eq, hmethods, hend.1⟩
    unfold compileWith run
    dsimp only
    rw [hrun]
    rfl

end Compilation

/-- No pass runs. -/
def PipelineConfig.off : PipelineConfig where
  instrumentGuards := false
  eliminateConditionals := false
  propagatePreconditions := false

/-- Every compilation succeeds, and so does one of the same tree without passes. There every
    constructor opens with a call of a constructor on the object at hand. Behind the passes that
    run a constructor does so exactly if the unit does not reach it, or if the first of its
    statements that is left is such a call, and not one of a guarded field. A statement goes with a
    dead call in it, unless the call stands in a guarded access. -/
theorem constructors_open_iff (config : PipelineConfig) (tree : CodeTree.CompileUnit) :
    ∃ c bound methods, compileWith config tree = .ok c ∧ compileWith .off tree = .ok bound ∧
      c.types.unitMethods c.unit = .ok methods ∧
      ∀ ref method, c.types.method ref = .ok method → method.isConstructor = true →
        ∃ constructor before body, bound.types.method ref = .ok constructor ∧
          constructor.body = some before ∧ before.opens bound.types.isConstructorName = true ∧
          method.body = some body ∧
          (body.opens c.types.isConstructorName = true ↔
            (ref ∈ methods →
              OpensBehind
                (callGoes (config.eliminateConditionals && goesOn config c.errors) bound.types
                  c.unit.symbols)
                (shieldsIf (config.instrumentGuards && goesOn config c.errors) bound.types)
                bound.types before.block.statements)) := by
  obtain ⟨w, u, hopens, hcompile⟩ := Compilation.compileWith_outcome tree
  obtain ⟨c, methods, hc, hlayout, hmethods, houtcome⟩ := hcompile config
  obtain ⟨bound, -, hbound, hlayout', -, hoff⟩ := hcompile .off
  obtain rfl : u = bound.types := Option.some.inj hoff
  have hsame : c.types.layout = bound.types.layout := hlayout.trans hlayout'.symm
  have hbefore : bound.types.unitMethods c.unit = .ok methods :=
    (Pipeline.unitMethods_outcome houtcome).symm.trans hmethods
  refine ⟨c, bound, methods, hc, hbound, hmethods, fun ref method hm hconstructor => ?_⟩
  obtain ⟨constructor, hfound, hskeleton⟩ := Universe.method_of_layout hsame hm
  have hkind : constructor.isConstructor = true := by
    have hskeletons : method.skeleton.isConstructor = constructor.skeleton.isConstructor := by
      rw [hskeleton]
    exact hskeletons.symm.trans hconstructor
  obtain ⟨before, hb, hchain⟩ := hopens ref constructor hfound hkind
  rw [Universe.isConstructorName_outline] at hchain
  obtain ⟨body, hbody, hnot, hiff⟩ := Pipeline.outcome_opens houtcome hbefore hfound hb hm
  refine ⟨constructor, before, body, hfound, hb, hchain, hbody, ?_⟩
  by_cases href : ref ∈ methods
  · rw [hiff href]
    exact ⟨fun h _ => h, fun h => h href⟩
  · rw [hnot href, Universe.isConstructorName_of_layout hsame]
    exact iff_of_true hchain fun hmem => absurd hmem href

/-- Can be called only where `DEBUG` is defined. -/
def peek : CodeTree.MethodDeclaration where
  name := "Peek"
  attributes := .publicStatic
  returnType := some Sample.int32
  statements := [Sample.returns (CodeTree.ExprForm.primitive (.int32 1)).node]
  customAttributes := Sample.log.customAttributes

/-- An account that hands what it peeks at to the constructor of its base class. -/
def peekingAccount : CodeTree.CompileUnit :=
  Sample.unitWith "Bank" [{ Sample.classNamed "Account" with members := [
    (CodeTree.MemberForm.method peek).node,
    (CodeTree.MemberForm.constructor {
      attributes := Sample.publicMethod
      baseArguments := [(CodeTree.ExprForm.methodInvoke none "Peek" []).node] }).node] }]

/-- While calls of `Peek` stay, its constructor opens with a chain call. -/
theorem constructors_open_iff_peekingAccount :
    ∃ c constructor body,
      compileWith { eliminateConditionals := false, instrumentGuards := false } peekingAccount =
        .ok c ∧
      c.types.method ⟨⟨⟨1⟩, ⟨0⟩⟩, 1⟩ = .ok constructor ∧ constructor.isConstructor = true ∧
      constructor.body = some body ∧ body.opens c.types.isConstructorName = true := by
  obtain ⟨c, bound, methods, hc, -, -, hall⟩ := constructors_open_iff
    { eliminateConditionals := false, instrumentGuards := false } peekingAccount
  have hcompiled : (compileWith { eliminateConditionals := false, instrumentGuards := false }
      peekingAccount).toOption.any (fun c =>
        (c.types.method ⟨⟨⟨1⟩, ⟨0⟩⟩, 1⟩).toOption.any Method.isConstructor) = true := by
    decide +kernel
  rw [hc] at hcompiled
  obtain ⟨found, hsame, hfound⟩ := (Option.any_eq_true _ _).mp hcompiled
  obtain rfl : c = found := Option.some.inj hsame
  obtain ⟨constructor, hm, hkind⟩ := (Option.any_eq_true _ _).mp hfound
  have hmethod := toOption_eq_some.mp hm
  obtain ⟨_, before, body, -, -, hopens, hbody, hiff⟩ := hall _ constructor hmethod hkind
  have hbehind := (Pipeline.opens_iff_opensBehind bound.types c.unit.symbols before).mp hopens
  exact ⟨c, constructor, body, hc, hmethod, hkind, hbody, hiff.mpr fun _ => hbehind⟩

/-- Nothing is left of the body of its constructor, the chain call included. -/
theorem peeking_constructor_empty :
    ∃ c constructor body, compileWith {} peekingAccount = .ok c ∧
      c.types.method ⟨⟨⟨1⟩, ⟨0⟩⟩, 1⟩ = .ok constructor ∧ constructor.isConstructor = true ∧
      constructor.body = some body ∧ body.block.statements = [] ∧
      body.opens c.types.isConstructorName = false := by
  have hcompiled : (compileWith {} peekingAccount).toOption.any (fun c =>
      (c.types.method ⟨⟨⟨1⟩, ⟨0⟩⟩, 1⟩).toOption.any fun m =>
        m.isConstructor && m.body.any (·.block.statements.isEmpty)) = true := by decide +kernel
  obtain ⟨c, hc, hmethod⟩ := (Option.any_eq_true _ _).mp hcompiled
  obtain ⟨constructor, hm, hbody⟩ := (Option.any_eq_true _ _).mp hmethod
  obtain ⟨hkind, hempty⟩ := Bool.and_eq_true_iff.mp hbody
  obtain ⟨body, hb, hstatements⟩ := (Option.any_eq_true _ _).mp hempty
  have hnil : body.block.statements = [] := List.isEmpty_iff.mp hstatements
  refine ⟨c, constructor, body, toOption_eq_some.mp hc, toOption_eq_some.mp hm, hkind, hb, hnil, ?_⟩
  rw [Body.opens, hnil]
  rfl

end MiddleEnd
