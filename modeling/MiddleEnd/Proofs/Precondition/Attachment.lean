/-
  What precondition propagation attaches. From a body without temporaries the walk collects what
  belongs to its expressions, in the order of the code: for a call what the method declares, and for
  an instance member that its receiver is not null (`collect_facts`). Of each text the first fact is
  kept. A method that cannot be called from outside gets these facts, and any other stays without
  (`editUnit_attaches`).
-/
import MiddleEnd.Proofs.Pipeline.Opening
import MiddleEnd.Proofs.Precondition.Distinct
import MiddleEnd.Proofs.Precondition.Facts
import MiddleEnd.Proofs.Universe.Enclosing

namespace MiddleEnd

namespace Preconditions

open Precondition (sameText)

variable {u : Universe}

/-! ## Facts of a body -/

/-- The receiver of an instance member is not null. -/
def receiverFacts (u : Universe) (receiver : Option Expr) (ref : MemberRef) : List Precondition :=
  match receiver, u.member ref with
  | some receiver, .ok member => if member.isStatic then [] else [.nonNull receiver]
  | _, _ => []

/-- What the called method declares. -/
def calleeFacts (u : Universe) (callee : Expr) (_ : List Expr) : List Precondition :=
  match callee.form with
  | .member _ ref =>
    match u.method ref with
    | .ok method => method.preconditions
    | .error _ => []
  | _ => []

/-- What the expressions of a block rely on, each with its parts behind it. -/
def factsOf (u : Universe) (block : Block) : List Precondition :=
  listing (receiverFacts u) (calleeFacts u) (block.exprs false)

theorem noteSpill_appends (form : StmtForm) :
    Visitor.Appends Collection.facts [] (noteSpill form) := by
  intro c
  rw [List.append_nil]
  unfold noteSpill
  split
  · rw [modify_run]
    split <;> rfl
  · rfl

/-- A receiver without temporaries is told as it stands, whatever values are known. -/
theorem noteReceiver_appends (receiver : Option Expr) (ref : MemberRef)
    (h : NoTemporaries (optionExprs false receiver)) :
    Visitor.Appends Collection.facts (receiverFacts u receiver ref)
      (noteReceiver u receiver ref) := by
  intro c
  cases receiver with
  | none => exact (List.append_nil c.facts).symm
  | some receiver =>
      dsimp only [noteReceiver, receiverFacts]
      rw [StateM.bind_run]
      rcases u.member ref with error | member
      · exact (List.append_nil c.facts).symm
      · rw [record_ok rfl]
        dsimp only
        cases member.isStatic with
        | true => exact (List.append_nil c.facts).symm
        | false =>
            have here : (get : Collect Collection) c = (c, c) := rfl
            rw [if_pos (by rfl), StateM.bind_run, here]
            dsimp only
            rw [Spills.resolve_of_noTemporaries h]
            rfl

theorem forM_note_appends (facts : List Precondition) :
    Visitor.Appends Collection.facts facts (facts.forM note) := by
  induction facts with
  | nil => exact .pure _
  | cons fact facts ih =>
      have hnote : Visitor.Appends Collection.facts [fact] (note fact) := fun _ => rfl
      exact hnote.seq ih

theorem noteCall_appends (callee : Expr) (arguments : List Expr) :
    Visitor.Appends Collection.facts (calleeFacts u callee arguments) (noteCall u callee) := by
  obtain ⟨form, type, source⟩ := callee
  cases form with
  | member receiver ref =>
      intro c
      dsimp only [noteCall, calleeFacts]
      rw [StateM.bind_run, Universe.method]
      rcases u.member ref with error | member
      · exact (List.append_nil c.facts).symm
      · rw [record_ok rfl]
        dsimp only [Option.bind_some, bind, Except.bind]
        rcases member.method? with _ | method
        · exact (List.append_nil c.facts).symm
        · exact forM_note_appends method.preconditions c
  | _ => exact .pure _

theorem visitor_lists (u : Universe) :
    (visitor u).Lists Collection.facts (fun e => e.temporary? = none) (receiverFacts u)
      (calleeFacts u) where
  block := fun hw => hw
  stmt := fun hw => (noteSpill_appends _).seq hw
  expr := fun hw => hw
  member := fun hok hw => (noteReceiver_appends _ _ hok).seq hw
  call := fun hw => (noteCall_appends _ _).seq hw

theorem collect_facts {block : Block} (h : block.NoTemporaries) :
    (collect u block).facts = factsOf u block :=
  (visitor_lists u).visitBlock block h {}

/-! ## What is attached -/

/-- What a method with this body is left with. -/
structure Attached (u : Universe) (ref : MemberRef) (block : Block) (ps : List Precondition) :
    Prop where
  visible : u.MethodVisible ref → ps = []
  hidden : ¬u.MethodVisible ref → ps = (factsOf u block).eraseDupsBy sameText

section

variable {ref : MemberRef} {body : Body} {ps : List Precondition}

theorem Attached.of_none (h : (factsOf u body.block).eraseDupsBy sameText = [])
    (hps : ps = [] ∨ Attached u ref body.block ps) : Attached u ref body.block ps := by
  rcases hps with rfl | hps
  · exact ⟨fun _ => rfl, fun _ => h.symm⟩
  · exact hps

theorem Attached.of_visible (h : u.MethodVisible ref)
    (hps : ps = [] ∨ Attached u ref body.block ps) : Attached u ref body.block ps := by
  rcases hps with rfl | hps
  · exact ⟨fun _ => rfl, fun hnot => absurd h hnot⟩
  · exact hps

/-- The same holds however often the method is met, since what it has already does not count. -/
theorem attached_of_revision (hu : u.Acyclic) (hb : body.block.NoTemporaries) {r : Revision}
    (h : revision u.outline ref body = some r) (hps : ps = [] ∨ Attached u ref body.block ps) :
    Attached u ref body.block (r.implicitPreconditions.getD ps) := by
  unfold revision at h
  rw [editBody_outline, Universe.isExternallyVisible_outline] at h
  unfold editBody at h
  have hfacts : (collect u body.block).facts = factsOf u body.block := collect_facts hb
  rcases hfailure : (collect u body.block).failure with _ | e
  · simp only [hfailure, hfacts, Option.isSome_none, Bool.false_eq_true, if_false] at h
    have hitems := PreconditionSet.ofList_items (factsOf u body.block)
    split at h
    · rename_i hempty
      obtain rfl := Option.some.inj h
      exact .of_none (hitems.symm.trans (List.isEmpty_iff.mp hempty)) hps
    · rcases hv : u.isExternallyVisible ref with e | _ | _
      · rw [hv] at h
        cases h
      · rw [hv] at h
        obtain rfl := Option.some.inj h
        refine ⟨fun hvisible => ?_, fun _ => hitems⟩
        have htrue := (Universe.isExternallyVisible_eq_ok_true_iff hu).mpr hvisible
        cases hv.symm.trans htrue
      · rw [hv] at h
        obtain rfl := Option.some.inj h
        exact .of_visible ((Universe.isExternallyVisible_eq_ok_true_iff hu).mp hv) hps
  · simp only [hfailure] at h
    cases h

end

/-- The method at hand with the body, and without or with what is attached. -/
def Awaits (u : Universe) (ref : MemberRef) (body : Body) (outline : Universe) (ref' : MemberRef)
    (m : Method) : Prop :=
  outline = u.outline ∧ ref' = ref ∧ m.body = some body ∧
    (m.implicitPreconditions = [] ∨ Attached u ref body.block m.implicitPreconditions)

/-- The method at hand with the body and with what is attached. -/
def Carries (u : Universe) (ref : MemberRef) (body : Body) (_ : Universe) (_ : MemberRef)
    (m : Method) : Prop :=
  m.body = some body ∧ Attached u ref body.block m.implicitPreconditions

theorem reviser_brings (hu : u.Acyclic) {ref : MemberRef} {body : Body}
    (hb : body.block.NoTemporaries) : reviser.Brings (Awaits u ref body) (Carries u ref body) := by
  rintro _ _ m r hr ⟨rfl, rfl, hbody, hps⟩
  have hsame : (r.apply m).body = some body := (body_of_reviser hr).trans hbody
  rw [hbody] at hr
  have hattached := attached_of_revision hu hb hr hps
  exact ⟨⟨rfl, rfl, hsame, .inr hattached⟩, hsame, hattached⟩

/-- Behind a successful run over a unit, a method of the unit whose body has no temporaries and that
    had nothing attached has what its body relies on, unless it can be called from outside. -/
theorem editUnit_attaches (hu : u.Acyclic) {unit : CompilationUnit} {trace : Trace}
    {s' : PassState PreconditionSet}
    (hrun : (pass.editUnit unit).run ⟨{}, u, trace⟩ = (.ok (), s'))
    {refs : List MemberRef} (hrefs : u.unitMethods unit = .ok refs) {ref : MemberRef}
    (href : ref ∈ refs) {m : Method} {body : Body} (hm : u.method ref = .ok m)
    (hbody : m.body = some body) (hb : body.block.NoTemporaries)
    (hnone : m.implicitPreconditions = []) :
    ∃ m', s'.types.method ref = .ok m' ∧ m'.body = some body ∧
      (u.MethodVisible ref → m'.implicitPreconditions = []) ∧
      (¬u.MethodVisible ref →
        m'.implicitPreconditions = (factsOf u body.block).eraseDupsBy sameText) := by
  have hends : (pass.editUnit unit).Ends ⟨{}, u, trace⟩
      (u.reviseUnit reviser unit.root.allTypes) _ := pass_revises.editUnit rfl
  unfold PassM.Ends at hends
  rw [hrun] at hends
  obtain ⟨refs', hrefs', hall⟩ := Universe.reviseUnit_eq_some.mp hends.1
  obtain rfl : refs = refs' := Except.ok.inj (hrefs.symm.trans hrefs')
  have hbefore : Universe.Holds (Awaits u ref body) u ref := by
    intro m' hm'
    obtain rfl : m = m' := Except.ok.inj (hm.symm.trans hm')
    exact ⟨rfl, rfl, hbody, .inl hnone⟩
  have hbehind : Universe.Holds (Carries u ref body) s'.types ref :=
    hbefore.reviseAll_of_mem (reviser_brings hu hb) hall href
  have hrefs'' : s'.types.unitMethods unit = .ok refs := by
    rw [← Universe.unitMethods_outline, Universe.outline_reviseAll hall,
      Universe.unitMethods_outline, hrefs]
  obtain ⟨m', hm'⟩ := Universe.isMethod_of_unitMethods hrefs'' href
  obtain ⟨hbody', hattached⟩ := hbehind m' hm'
  exact ⟨m', hm', hbody', hattached.visible, hattached.hidden⟩

end Preconditions

/-! A chest that anyone can open, and in it a drawer that nobody outside can see. -/

namespace Chest

def chestId : TypeId := ⟨⟨0⟩, ⟨0⟩⟩

def drawerId : TypeId := ⟨⟨0⟩, ⟨1⟩⟩

def lock : MemberRef := ⟨chestId, 0⟩

def openLid : MemberRef := ⟨chestId, 1⟩

def chest : MemberRef := ⟨drawerId, 0⟩

def pull : MemberRef := ⟨drawerId, 1⟩

def memberOf (receiver : Expr) (ref : MemberRef) : Expr :=
  (ExprForm.member (some receiver) ref).expr

def self : Expr := ExprForm.thisRef.expr

/-- `this.lock` -/
def showLock : Body where
  block := { statements := [.expression (memberOf self lock)] }

/-- `this.chest.Open(this.chest.lock)` -/
def openChest : Body where
  block := { statements := [.expression
    (ExprForm.call (memberOf (memberOf self chest) openLid)
      [memberOf (memberOf self chest) lock]).expr] }

/-- Opening takes a key. -/
def chestNode : TypeNode where
  kind := .classType
  name := "Chest"
  declaringModule := ⟨0⟩
  flags := { visibility := .publicType }
  members := [
    Wallet.memberOf chestId "lock" (.field { type := .int32 }),
    Wallet.memberOf chestId "Open" (.method {
      flags := .onInstance .publicMember
      body := some showLock
      preconditions := [.nonNull (.identifier "key")] }),
    Wallet.memberOf chestId "Drawer" (.nestedType drawerId)]

def drawerNode : TypeNode where
  kind := .classType
  name := "Drawer"
  declaringModule := ⟨0⟩
  declaringType := some chestId
  flags := { visibility := .nestedPrivate }
  members := [
    Wallet.memberOf drawerId "chest" (.field { type := .bound chestId }),
    Wallet.memberOf drawerId "Pull" (.method {
      flags := .onInstance .publicMember
      body := some openChest })]

def types : Universe :=
  ⟨⟨#[{ id := ⟨0⟩, name := "chests", types := ⟨#[chestNode, drawerNode]⟩ }]⟩⟩

end Chest

namespace Preconditions

open Chest

/-- What the drawer relies on is attached to it, each fact once; the chest is told about only. -/
theorem editUnit_attaches_chest :
    types.Acyclic ∧ types.unitMethods (Wallet.unitOf [chestId]) = .ok [openLid, pull] ∧
    types.MethodVisible openLid ∧ ¬types.MethodVisible pull ∧
    ∃ s', (pass.editUnit (Wallet.unitOf [chestId])).run ⟨{}, types, []⟩ = (.ok (), s') ∧
      (∃ m, s'.types.method openLid = .ok m ∧ m.implicitPreconditions = []) ∧
      ∃ m, s'.types.method pull = .ok m ∧ m.implicitPreconditions.map Precondition.text =
        ["key != null", "this.<0:1#0> != null", "this != null"] := by
  have hu : types.Acyclic := Universe.acyclic_of_behind (by decide +kernel)
  have hrefs : types.unitMethods (Wallet.unitOf [chestId]) = .ok [openLid, pull] :=
    toOption_eq_some.mp (by decide +kernel)
  have hvisible : types.MethodVisible openLid :=
    (Universe.isExternallyVisible_eq_ok_true_iff hu).mp (toOption_eq_some.mp (by decide +kernel))
  have hhidden : ¬types.MethodVisible pull := by
    intro h
    have htrue := (Universe.isExternallyVisible_eq_ok_true_iff hu).mpr h
    exact absurd (toOption_eq_some.mpr htrue) (by decide +kernel)
  have hok : ((pass.editUnit (Wallet.unitOf [chestId])).run ⟨{}, types, []⟩).1 = .ok () :=
    toOption_eq_some.mp (by decide +kernel)
  have hrun := Prod.ext hok
    (rfl : ((pass.editUnit (Wallet.unitOf [chestId])).run ⟨{}, types, []⟩).2 = _)
  refine ⟨hu, hrefs, hvisible, hhidden, _, hrun, ?_, ?_⟩
  · obtain ⟨m, hm, -, hnone, -⟩ := editUnit_attaches hu hrun hrefs (List.mem_cons_self ..)
      (toOption_eq_some.mp rfl) rfl (by decide) rfl
    exact ⟨m, hm, hnone hvisible⟩
  · have hpull : pull ∈ [openLid, pull] := List.mem_cons_of_mem _ (List.mem_cons_self ..)
    obtain ⟨m, hm, -, -, hattached⟩ := editUnit_attaches hu hrun hrefs hpull
      (toOption_eq_some.mp rfl) rfl (by decide) rfl
    refine ⟨m, hm, ?_⟩
    rw [hattached hhidden]
    decide +kernel

end Preconditions

end MiddleEnd
