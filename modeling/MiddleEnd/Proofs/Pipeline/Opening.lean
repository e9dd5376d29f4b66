/-
  Whether a body opens with a chain call behind a pipeline. Before each pass this can be told from
  the body at hand, by the passes that are still to come (`Tracks`): guards shield what stands in a
  guarded access, and then elimination takes out what is lost. Each pass hands the answer on to the
  next one, however often it meets a method of the unit; methods that the unit does not reach stay
  as they are (`outcome_opens`).
-/
import MiddleEnd.Proofs.Pipeline.Idempotence
import MiddleEnd.Proofs.Pipeline.Shielding

namespace MiddleEnd

/-! ## Revisions of some of the methods -/

namespace Reviser

/-- A revision keeps the first condition, and the second one holds behind it. -/
def Brings (f : Reviser) (P Q : Universe → MemberRef → Method → Prop) : Prop :=
  ∀ outline ref (m : Method) r, f outline ref m.body = some r → P outline ref m →
    P outline ref (r.apply m) ∧ Q outline ref (r.apply m)

/-- A method with a body has one behind a revision of bodies. -/
theorem body_of_ofBodies {edited : Universe → MemberRef → Body → Option Body} {outline : Universe}
    {ref : MemberRef} {m : Method} {r : Revision} {body : Body}
    (h : ofBodies edited outline ref m.body = some r) (hb : m.body = some body) :
    ∃ body', edited outline ref body = some body' ∧ (r.apply m).body = some body' := by
  rw [hb] at h
  obtain ⟨body', hedited, rfl⟩ := Option.map_eq_some_iff.mp h
  exact ⟨body', hedited, rfl⟩

end Reviser

namespace Universe

variable {f : Reviser} {P Q : Universe → MemberRef → Method → Prop} {u u' : Universe}
  {ref : MemberRef} {refs : List MemberRef}

theorem Holds.reviseAll_of_notMem (h : u.reviseAll f refs = some u') (href : ref ∉ refs)
    (hP : Holds P u ref) : Holds P u' ref := by
  induction refs generalizing u with
  | nil => rwa [← Option.some.inj h]
  | cons first refs ih =>
      obtain ⟨u₁, h₁, h⟩ := reviseAll_cons h
      obtain ⟨hne, href⟩ := List.ne_and_not_mem_of_not_mem_cons href
      refine ih h href fun m' hm' => ?_
      obtain ⟨m, r, -, -, rfl⟩ := revise_eq_some h₁
      obtain ⟨m, hm, rfl⟩ := method_modifyMethod.mp hm'
      rw [outline_apply, if_neg hne]
      exact hP m hm

theorem Holds.reviseAll_of_mem (hf : f.Brings P Q) (h : u.reviseAll f refs = some u')
    (href : ref ∈ refs) (hP : Holds P u ref) : Holds Q u' ref := by
  have hkeeps : f.Keeps P := fun outline ref m r hr hm => (hf outline ref m r hr hm).1
  induction refs generalizing u with
  | nil => cases href
  | cons first refs ih =>
      obtain ⟨u₁, h₁, h₂⟩ := reviseAll_cons h
      by_cases hrest : ref ∈ refs
      · exact ih h₂ hrest (hP.revise hkeeps h₁)
      · -- this is the last time that the method is met
        obtain rfl : ref = first := (List.mem_cons.mp href).resolve_right hrest
        refine Holds.reviseAll_of_notMem h₂ hrest fun m' hm' => ?_
        obtain ⟨m, r, hm, hr, rfl⟩ := revise_eq_some h₁
        obtain ⟨m'', hm'', rfl⟩ := method_modifyMethod.mp hm'
        obtain rfl : m = m'' := Except.ok.inj (hm.symm.trans hm'')
        rw [outline_apply, if_pos rfl]
        exact (hf _ _ _ _ hr (hP m hm)).2

theorem isConstructorName_outline (u : Universe) :
    u.outline.isConstructorName = u.isConstructorName := by
  funext ref
  unfold isConstructorName
  rw [member_outline]
  rcases u.member ref with e | member
  · rfl
  · exact congrArg (· == Lowering.constructorName) member.name_skeleton

end Universe

open Universe (Holds)

namespace Pipeline

section

variable {f : Reviser} {P Q : Universe → MemberRef → Method → Prop} {u u' : Universe}
  {unit : CompilationUnit} {ref : MemberRef} {refs : List MemberRef}

theorem holds_stage_of_notMem {runs : Bool} (h : stage runs f unit.root.allTypes u = some u')
    (hrefs : u.unitMethods unit = .ok refs) (href : ref ∉ refs) (hP : Holds P u ref) :
    Holds P u' ref := by
  unfold stage at h
  split at h
  · obtain ⟨refs', hrefs', h⟩ := Universe.reviseUnit_eq_some.mp h
    obtain rfl : refs = refs' := Except.ok.inj (hrefs.symm.trans hrefs')
    exact hP.reviseAll_of_notMem h href
  · rwa [← Option.some.inj h]

/-- What holds by whether a pass is to come, if the pass brings it about. -/
theorem holds_stage_of_mem {runs : Bool} {P : Bool → Universe → MemberRef → Method → Prop}
    (hf : f.Brings (P true) (P false)) (h : stage runs f unit.root.allTypes u = some u')
    (hrefs : u.unitMethods unit = .ok refs) (href : ref ∈ refs) (hP : Holds (P runs) u ref) :
    Holds (P false) u' ref := by
  cases runs with
  | false => rwa [← Option.some.inj h]
  | true =>
      obtain ⟨refs', hrefs', h⟩ := Universe.reviseUnit_eq_some.mp h
      obtain rfl : refs = refs' := Except.ok.inj (hrefs.symm.trans hrefs')
      exact hP.reviseAll_of_mem hf h href

theorem unitMethods_outcome {config : PipelineConfig} {w : WellKnown} {errors : Sink}
    {symbols : Option SymbolSet}
    (h : outcome config w errors symbols unit.root.allTypes u = some u') :
    u'.unitMethods unit = u.unitMethods unit := by
  obtain ⟨u₁, h₁, h⟩ := Option.bind_eq_some_iff.mp h
  obtain ⟨u₂, h₂, h₃⟩ := Option.bind_eq_some_iff.mp h
  rw [unitMethods_stage h₃, unitMethods_stage h₂, unitMethods_stage h₁]

end

/-! ## What the passes hand on -/

/-- The shields, if guards are put in at all. -/
def shieldsIf (guards : Bool) (u : Universe) : Shields := if guards then .ofGuards u else .none

/-- The method has a body, which opens behind the passes to come exactly if the condition holds. -/
def Tracks (guards eliminates : Bool) (symbols : Option SymbolSet) (condition : Prop)
    (outline : Universe) (_ : MemberRef) (m : Method) : Prop :=
  ∃ body, m.body = some body ∧
    (OpensBehind (callGoes eliminates outline symbols) (shieldsIf guards outline) outline
      body.block.statements ↔ condition)

variable {eliminates : Bool} {symbols : Option SymbolSet} {condition : Prop}

theorem guard_brings (w : WellKnown) :
    Reviser.Brings (.ofBodies fun outline ref body => (Guard.editBody w outline ref body 0).result?)
      (Tracks true eliminates symbols condition) (Tracks false eliminates symbols condition) := by
  rintro outline ref m r hr ⟨body, hb, hopens⟩
  obtain ⟨body', hedited, hb'⟩ := Reviser.body_of_ofBodies hr hb
  obtain ⟨-, rfl⟩ := EditedBody.result?_eq_some.mp hedited
  refine ⟨⟨_, hb', Iff.trans ?_ hopens⟩, ⟨_, hb', Iff.trans ?_ hopens⟩⟩
  · exact opensBehind_guarded w (.refl _) ref body 0
  · exact opensBehind_guarded w (Shields.none_within _) ref body 0

theorem elimination_brings :
    Reviser.Brings (.ofBodies fun outline ref body =>
        (Conditional.editBody outline ref body { symbols }).result?)
      (Tracks false true symbols condition) (Tracks false false symbols condition) := by
  rintro outline ref m r hr ⟨body, hb, hopens⟩
  obtain ⟨body', hedited, hb'⟩ := Reviser.body_of_ofBodies hr hb
  obtain ⟨hfailure, rfl⟩ := EditedBody.result?_eq_some.mp hedited
  have hopens' := (opens_eliminated outline symbols ref body { symbols } rfl).trans hopens
  refine ⟨⟨_, hb', ?_⟩, ⟨_, hb', ?_⟩⟩
  · -- a second round changes nothing, so what it would leave is what is there
    have hagain := opens_eliminated outline symbols ref
      (Conditional.editBody outline ref body { symbols }).body { symbols } rfl
    rw [Conditional.editBody_again outline hfailure ref rfl] at hagain
    exact hagain.symm.trans hopens'
  · exact (opens_iff_opensBehind outline symbols _).symm.trans hopens'

theorem propagation_keeps {guards : Bool} :
    Preconditions.reviser.Keeps (Tracks guards eliminates symbols condition) := by
  rintro outline ref m r hr ⟨body, hb, hopens⟩
  exact ⟨body, (Preconditions.body_of_reviser hr).trans hb, hopens⟩

theorem opensBehind_outline {guards : Bool} (u : Universe) (ss : List Stmt) :
    OpensBehind (callGoes eliminates u.outline symbols) (shieldsIf guards u.outline) u.outline ss ↔
      OpensBehind (callGoes eliminates u symbols) (shieldsIf guards u) u ss := by
  have hcalls : callGoes eliminates u.outline symbols = callGoes eliminates u symbols := by
    funext callee
    unfold callGoes Conditional.isDead
    rw [Conditional.symbolOf_outline]
  have hfacts : Guard.facts? u.outline = Guard.facts? u := by
    funext ref
    unfold Guard.facts?
    rw [Guard.lookupField_outline]
  have hshields : shieldsIf guards u.outline = shieldsIf guards u := by
    unfold shieldsIf Shields.ofGuards Guard.readGetter? Guard.writeGetter?
    rw [hfacts]
  unfold OpensBehind Shields.namesConstructor
  rw [hcalls, hshields, Universe.isConstructorName_outline]

/-- A body of the unit opens behind a pipeline exactly if it opened behind the passes that ran. A
    body that the unit does not reach is left alone. -/
theorem outcome_opens {config : PipelineConfig} {w : WellKnown} {errors : Sink} {u u' : Universe}
    {unit : CompilationUnit} {refs : List MemberRef}
    (h : outcome config w errors unit.symbols unit.root.allTypes u = some u')
    (hrefs : u.unitMethods unit = .ok refs) {ref : MemberRef} {m m' : Method} {before : Body}
    (hm : u.method ref = .ok m) (hb : m.body = some before) (hm' : u'.method ref = .ok m') :
    ∃ body, m'.body = some body ∧ (ref ∉ refs → body = before) ∧
      (ref ∈ refs → (body.opens u'.isConstructorName = true ↔
        OpensBehind (callGoes (config.eliminateConditionals && goesOn config errors) u unit.symbols)
          (shieldsIf (config.instrumentGuards && goesOn config errors) u) u
          before.block.statements)) := by
  obtain ⟨u₁, h₁, h⟩ := Option.bind_eq_some_iff.mp h
  obtain ⟨u₂, h₂, h₃⟩ := Option.bind_eq_some_iff.mp h
  have hrefs₁ : u₁.unitMethods unit = .ok refs := (unitMethods_stage h₁).trans hrefs
  have hrefs₂ : u₂.unitMethods unit = .ok refs := (unitMethods_stage h₂).trans hrefs₁
  have hmethod : ∀ found, u.method ref = .ok found → found = m := fun found hfound =>
    Except.ok.inj (hfound.symm.trans hm)
  by_cases href : ref ∈ refs
  · obtain ⟨condition, hcondition⟩ : ∃ condition,
        OpensBehind (callGoes (config.eliminateConditionals && goesOn config errors) u unit.symbols)
          (shieldsIf (config.instrumentGuards && goesOn config errors) u) u
          before.block.statements ↔ condition := ⟨_, Iff.rfl⟩
    have hstart : Holds (Tracks (config.instrumentGuards && goesOn config errors)
        (config.eliminateConditionals && goesOn config errors) unit.symbols condition) u ref := by
      intro found hfound
      obtain rfl := hmethod found hfound
      exact ⟨before, hb, (opensBehind_outline u before.block.statements).trans hcondition⟩
    have hguarded : Holds (Tracks false (config.eliminateConditionals && goesOn config errors)
        unit.symbols condition) u₁ ref :=
      holds_stage_of_mem (P := fun guards => Tracks guards _ unit.symbols condition)
        (guard_brings w) h₁ hrefs href hstart
    have hleft : Holds (Tracks false false unit.symbols condition) u₂ ref :=
      holds_stage_of_mem (P := fun eliminates => Tracks false eliminates unit.symbols condition)
        elimination_brings h₂ hrefs₁ href hguarded
    obtain ⟨body, hbody, hopens⟩ := holds_stage propagation_keeps h₃ hleft m' hm'
    refine ⟨body, hbody, fun hmem => absurd href hmem, fun _ => ?_⟩
    rw [hcondition, ← hopens, ← Universe.isConstructorName_outline]
    exact opens_iff_opensBehind u'.outline unit.symbols body
  · have hkept : Holds (fun _ _ m => m.body = some before) u' ref := by
      refine holds_stage_of_notMem h₃ hrefs₂ href (holds_stage_of_notMem h₂ hrefs₁ href
        (holds_stage_of_notMem h₁ hrefs href fun found hfound => ?_))
      rw [hmethod found hfound, hb]
    exact ⟨before, hkept m' hm', fun _ => rfl, fun hmem => absurd hmem href⟩

end Pipeline

end MiddleEnd
