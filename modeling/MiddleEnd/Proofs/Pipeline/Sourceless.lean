/-
  Binding, contracts and the passes never look at a source. Each of them makes of a universe without
  sources what it makes of the universe itself, up to sources, and tells and counts the same
  (`Compilation.finish_commutes`).

  Guards and members that are bound take their source over from the node they replace, so they lose
  it with that node. Facts are told apart by their texts, in which no source shows but that of a
  snippet; what was a duplicate stays one, and so do the facts that are attached.
-/
import MiddleEnd.Compile
import MiddleEnd.Proofs.Pass.Sourceless

namespace MiddleEnd

/-! ## Binding -/

namespace Binding

def State.sourceless (s : State) : State := { s with trace := s.trace.map TraceEvent.sourceless }

variable (u : Universe) (owner : TypeId)

theorem bindTo_commutes (e e' : Expr) (hsource : e'.source = none)
    (receiver : Option Expr) (found : Found) :
    StateM.Commutes Expr.sourceless State.sourceless (bindTo e receiver found)
      (bindTo e' (exprSourceless receiver) found) := by
  refine .bind (.update fun s => ?_) fun _ => .pure ?_
  · simp [State.sourceless, TraceEvent.sourceless]
  · rw [hsource]
    rfl

theorem callType_sourceless (callee : Expr) :
    callType u.sourceless callee.sourceless = callType u callee := by
  refine (sourcelessView.callType_view u callee.sourceless).trans ?_
  obtain ⟨form, type, source⟩ := callee
  cases form <;> rfl

theorem boundType?_sourceless (e : Expr) : boundType? e.sourceless = boundType? e := by
  unfold boundType?
  rw [Expr.type_sourceless]

theorem bindExpr_commutes (e : Expr) :
    StateM.Commutes Expr.sourceless State.sourceless (bindExpr u owner e)
      (bindExpr u.sourceless owner e.sourceless) := by
  have hlookup : lookup u.sourceless = lookup u := by
    funext type name
    exact sourcelessView.lookup_view u type name
  obtain ⟨form, type, source⟩ := e
  unfold bindExpr
  rw [hlookup]
  cases form with
  | identifier name =>
      simp only [Expr.sourceless, ExprForm.sourceless]
      rcases lookup u owner name with _ | found
      · exact .pure rfl
      · have hself : exprSourceless (if found.isStatic then none else some (self owner)) =
            if found.isStatic then none else some (self owner) := by
          split <;> rfl
        have hbind := bindTo_commutes ⟨.identifier name, type, source⟩
          ⟨.identifier name, type, none⟩ rfl
          (if found.isStatic then none else some (self owner)) found
        rwa [hself] at hbind
  | qualified qualifier name =>
      simp only [Expr.sourceless, ExprForm.sourceless, boundType?_sourceless]
      rcases (boundType? qualifier).bind fun type => lookup u type name with _ | found
      · exact .pure rfl
      · exact bindTo_commutes _ _ rfl (some qualifier) found
  | call callee arguments =>
      simp only [Expr.sourceless, ExprForm.sourceless, callType_sourceless]
      exact .pure rfl
  | _ => exact .pure rfl

theorem editor_commutes :
    Editor.Commutes State.sourceless (editor u owner) (editor u.sourceless owner) where
  expr := fun hw => .bind hw fun e => .always (bindExpr_commutes u owner e)
  member := .keepMember
  call := fun hw => hw
  assignment := fun ht hv _ => AssignmentParts.walk_commutes ht hv

theorem pass_commutes : pass.Commutes id where
  beginUnit := fun _ _ => rfl
  endUnit := fun _ _ => rfl
  editBody := by
    intro u ref body bound
    have hrun : (editor u.sourceless ref.type).editBlock body.block.sourceless {} = _ :=
      (editor_commutes u ref.type).editBlock body.block {}
    show EditedBody.Agrees id (editBody u ref body bound)
      (editBody u.sourceless ref body.sourceless bound)
    unfold editBody Body.sourceless
    rw [hrun]
    exact ⟨rfl, rfl, rfl, rfl⟩
  finishMethod := fun _ => .pure rfl

end Binding

/-! ## Contracts -/

namespace Contracts

variable {σ : Type} {g : σ → σ}

theorem installOn_commutes (guard type : TypeId) :
    PassM.Commutes id g (installOn guard type) (installOn guard type) := by
  unfold installOn
  refine .get fun s => ?_
  refine .bind (.ofExcept (s.types.type_sourceless type)) fun node => ?_
  have hcontract : contractOf (s.sourceless g).types guard type node.sourceless.members =
      contractOf s.types guard type node.members :=
    sourcelessView.contractOf_view s.types guard type node.members
  dsimp only
  rw [hcontract]
  split
  · exact .pure rfl
  · refine .bind (.modifyTypes fun u => ?_) fun _ => .pure rfl
    exact sourcelessView.modifyType_view u type fun t => rfl

theorem installOnAll_commutes (guard : TypeId) (types : List TypeId) :
    PassM.Commutes id g (installOnAll guard types) (installOnAll guard types) := by
  induction types with
  | nil => exact .pure rfl
  | cons type types ih =>
      exact .bind (installOn_commutes guard type) fun _ => .bind ih fun _ => .pure rfl

theorem install_commutes (unit : CompilationUnit) (guard : TypeId) :
    PassM.Commutes id g (install unit guard) (install unit.sourceless guard) := by
  unfold install
  rw [unit.allTypes_sourceless]
  exact .bind (installOnAll_commutes guard _) fun _ => .bind (.emit _) fun _ => .pure rfl

end Contracts

/-! ## Guards -/

namespace Guard

def State.sourceless (s : State) : State := { s with trace := s.trace.map TraceEvent.sourceless }

variable (u : Universe) (w : WellKnown)

theorem fieldFacts_commutes (ref : MemberRef) :
    StateM.Commutes id State.sourceless (fieldFacts u ref) (fieldFacts u.sourceless ref) := by
  unfold fieldFacts
  rw [show lookupField u.sourceless ref = lookupField u ref from
    sourcelessView.lookupField_view u ref]
  rcases lookupField u ref with e | facts
  · exact .bind (.update fun _ => rfl) fun _ => .pure rfl
  · exact .pure rfl

theorem count_commutes {event : TraceEvent} (h : event.sourceless = event) :
    StateM.Commutes id State.sourceless (count event) (count event) := by
  refine .update fun s => ?_
  simp [State.sourceless, h]

theorem spill_commutes (value : Expr) (fallback : TypeRef) :
    StateM.Commutes (Prod.map Stmt.sourceless Expr.sourceless) State.sourceless
      (spill value fallback) (spill value.sourceless fallback) := by
  have htemp : StateM.Commutes id State.sourceless newTemp newTemp := fun _ => rfl
  unfold spill
  rw [Expr.type_sourceless]
  exact .bind htemp fun _ => .pure rfl

theorem guardedRead_commutes (e : Expr) {e' : Expr} (htype : e'.type = e.type)
    (hsource : e'.source = none) (receiver : Expr) (ref : MemberRef) (facts : FieldFacts)
    (getter : MemberRef) :
    StateM.Commutes Expr.sourceless State.sourceless (guardedRead w e receiver ref facts getter)
      (guardedRead w e' receiver.sourceless ref facts getter) := by
  unfold guardedRead
  rw [htype, hsource]
  exact .bind (spill_commutes receiver _) fun _ => .bind (count_commutes rfl) fun _ => .pure rfl

theorem guardedWrite_commutes (target : Expr) {target' : Expr} (htype : target'.type = target.type)
    (hsource : target'.source = none) (receiver value : Expr) (source : Option SourceContext)
    (ref : MemberRef) (facts : FieldFacts) (getter : MemberRef) :
    StateM.Commutes Stmt.sourceless State.sourceless
      (guardedWrite w target receiver value source ref facts getter)
      (guardedWrite w target' receiver.sourceless value.sourceless none ref facts getter) := by
  unfold guardedWrite
  rw [htype, hsource]
  exact .bind (spill_commutes receiver _) fun _ => .bind (spill_commutes value _) fun _ =>
    .bind (count_commutes rfl) fun _ => .pure rfl

theorem editMember_commutes {receiver : Option Expr} {ref : MemberRef} {type : Option TypeRef}
    {source : Option SourceContext} {edit edit' : Edit State (Option Expr)}
    (he : Edit.Commutes exprSourceless State.sourceless edit edit') :
    Edit.Commutes Expr.sourceless State.sourceless
      (editMember u w ⟨.member receiver ref, type, source⟩ ref edit)
      (editMember u.sourceless w ⟨.member (exprSourceless receiver) ref, type, none⟩ ref
        edit') := by
  unfold editMember
  refine .bind (.always (fieldFacts_commutes u ref)) fun facts => .bind he fun edited => ?_
  rcases facts with _ | facts
  · exact .pure rfl
  · dsimp only [id_eq, Option.bind_some]
    rcases facts.readGuard with _ | getter
    · exact .pure rfl
    · rcases edited with _ | edited
      · exact .pure rfl
      · exact .always (guardedRead_commutes w _ rfl rfl edited ref facts getter)

theorem editAssignment_commutes {target value : Expr} {source : Option SourceContext}
    {editTarget editTarget' editValue editValue' : Edit State Expr}
    {editReceiver editReceiver' : Edit State (Option Expr)}
    (ht : Edit.Commutes Expr.sourceless State.sourceless editTarget editTarget')
    (hv : Edit.Commutes Expr.sourceless State.sourceless editValue editValue')
    (hr : Edit.Commutes exprSourceless State.sourceless editReceiver editReceiver') :
    Edit.Commutes Stmt.sourceless State.sourceless
      (editAssignment u w ⟨target, value, source, editTarget, editValue, editReceiver⟩)
      (editAssignment u.sourceless w ⟨target.sourceless, value.sourceless, none, editTarget',
        editValue', editReceiver'⟩) := by
  unfold editAssignment
  obtain ⟨form, type, targetSource⟩ := target
  cases form with
  | member receiver ref =>
      refine .bind (.always (fieldFacts_commutes u ref)) fun facts => ?_
      rcases facts with _ | facts
      · exact AssignmentParts.walk_commutes ht hv
      · refine .bind hr fun edited => .bind hv fun value => ?_
        rcases edited with _ | edited
        · exact .pure rfl
        · dsimp only [exprSourceless]
          rcases facts.writeGuard with _ | getter
          · exact .pure rfl
          · exact .always (guardedWrite_commutes w _ rfl rfl edited value source ref facts getter)
  | _ => exact AssignmentParts.walk_commutes ht hv

theorem editor_commutes :
    Editor.Commutes State.sourceless (editor u w) (editor u.sourceless w) where
  expr := fun hw => hw
  member := editMember_commutes u w
  call := fun hw => hw
  assignment := editAssignment_commutes u w

theorem pass_commutes : (pass w).Commutes id where
  beginUnit := fun _ _ => rfl
  endUnit := fun _ _ => rfl
  editBody := by
    intro u ref body instrumented
    have hrun : (editor u.sourceless w).editBlock body.block.sourceless
        { tempCount := body.tempCount } = _ :=
      (editor_commutes u w).editBlock body.block { tempCount := body.tempCount }
    show EditedBody.Agrees id (editBody w u ref body instrumented)
      (editBody w u.sourceless ref body.sourceless instrumented)
    unfold editBody Body.sourceless
    rw [hrun]
    exact ⟨rfl, rfl, rfl, rfl⟩
  finishMethod := fun _ => .pure rfl

end Guard

/-! ## Elimination -/

namespace Conditional

def Elimination.sourceless (s : Elimination) : Elimination :=
  { s with trace := s.trace.map TraceEvent.sourceless }

variable (u : Universe)

theorem symbolOf_sourceless (callee : Expr) :
    symbolOf u.sourceless callee.sourceless = symbolOf u callee := by
  refine (sourcelessView.symbolOf_view u callee.sourceless).trans ?_
  obtain ⟨form, type, source⟩ := callee
  cases form <;> rfl

theorem editCall_commutes (symbols : Option SymbolSet) {callee : Expr}
    {walk walk' : Edit Elimination Expr}
    (hw : Edit.Commutes Expr.sourceless Elimination.sourceless walk walk') :
    Edit.Commutes Expr.sourceless Elimination.sourceless (editCall u symbols callee walk)
      (editCall u.sourceless symbols callee.sourceless walk') := by
  unfold editCall
  rw [symbolOf_sourceless]
  rcases symbolOf u callee with e | _ | symbol
  · exact .bind (.always (.update fun _ => rfl)) fun _ => hw
  · exact hw
  · dsimp only
    split
    · exact hw
    · refine .bind (.always (.update fun s => ?_)) fun _ => .delete
      simp [Elimination.sourceless, TraceEvent.sourceless]

theorem editor_commutes (symbols : Option SymbolSet) :
    Editor.Commutes Elimination.sourceless (editor u symbols) (editor u.sourceless symbols) where
  expr := fun hw => hw
  member := .keepMember
  call := editCall_commutes u symbols
  assignment := fun ht hv _ => AssignmentParts.walk_commutes ht hv

theorem pass_commutes : pass.Commutes id where
  beginUnit := fun _ _ => rfl
  endUnit := fun _ _ => rfl
  editBody := by
    intro u ref body state
    have hrun : (editor u.sourceless state.symbols).editBlock body.block.sourceless {} = _ :=
      (editor_commutes u state.symbols).editBlock body.block {}
    show EditedBody.Agrees id (editBody u ref body state)
      (editBody u.sourceless ref body.sourceless state)
    unfold editBody Body.sourceless
    rw [hrun]
    exact ⟨rfl, rfl, rfl, rfl⟩
  finishMethod := fun _ => .pure rfl

end Conditional

/-! ## Propagation -/

theorem Precondition.text_sourceless (p : Precondition) : p.sourceless.text = p.text := by
  obtain ⟨value⟩ := p
  rw [Precondition.sourceless, Precondition.text, Precondition.text, value.text_sourceless]

namespace PreconditionSet

def sourceless (s : PreconditionSet) : PreconditionSet := ⟨s.items.map Precondition.sourceless⟩

theorem insert_sourceless (s : PreconditionSet) (p : Precondition) :
    s.sourceless.insert p.sourceless = (s.insert p).sourceless := by
  have hcontains : s.sourceless.contains p.sourceless = s.contains p := by
    simp only [contains, sourceless, List.any_map, Function.comp_def, Precondition.text_sourceless]
  unfold insert
  rw [hcontains]
  split
  · rfl
  · simp [sourceless]

theorem ofList_sourceless (ps : List Precondition) :
    ofList (ps.map Precondition.sourceless) = (ofList ps).sourceless := by
  have hfold : ∀ s : PreconditionSet, (ps.map Precondition.sourceless).foldl insert s.sourceless =
      (ps.foldl insert s).sourceless := by
    induction ps with
    | nil => exact fun _ => rfl
    | cons p ps ih =>
        intro s
        rw [List.map_cons, List.foldl_cons, List.foldl_cons, insert_sourceless, ih]
  exact hfold {}

end PreconditionSet

namespace Spills

def sourceless (s : Spills) : Spills := ⟨s.entries.map fun e => (e.1, e.2.sourceless)⟩

theorem get?_sourceless (s : Spills) (id : LocalId) :
    s.sourceless.get? id = (s.get? id).map Expr.sourceless := by
  obtain ⟨entries⟩ := s
  unfold get? sourceless
  induction entries with
  | nil => rfl
  | cons e entries ih =>
      rw [List.map_cons, List.lookup_cons, List.lookup_cons]
      split
      · rfl
      · exact ih

theorem erase_sourceless (s : Spills) (id : LocalId) :
    s.sourceless.erase id = (s.erase id).sourceless := by
  simp only [erase, sourceless, List.filter_map, Function.comp_def]

theorem editor_commutes (s : Spills) : Editor.Commutes id s.editor s.sourceless.editor where
  expr := by
    intro e walk walk' hw
    obtain ⟨form, type, source⟩ := e
    cases form with
    | temporary temp =>
        simp only [editor, Expr.sourceless, ExprForm.sourceless, get?_sourceless]
        rcases s.get? temp with _ | value
        · exact fun _ => rfl
        · exact .pure rfl
    | _ => exact hw
  member := .keepMember
  call := fun hw => hw
  assignment := fun ht hv _ => AssignmentParts.walk_commutes ht hv

theorem resolve_sourceless (s : Spills) (e : Expr) :
    s.sourceless.resolve e.sourceless = (s.resolve e).map Expr.sourceless := by
  have hrun : (s.sourceless.editor.editExpr e.sourceless).run false = _ :=
    s.editor_commutes.editExpr e false
  unfold resolve
  rw [hrun]
  rcases (s.editor.editExpr e).run false with ⟨_ | e, _ | _⟩ <;> rfl

end Spills

namespace Preconditions

def Collection.sourceless (c : Collection) : Collection where
  facts := c.facts.map Precondition.sourceless
  spills := c.spills.sourceless
  failure := c.failure

variable (u : Universe)

theorem record_commutes {α β : Type} {f : α → β} {x : Except InternalError α}
    {y : Except InternalError β} (h : y = x.map f) :
    StateM.Commutes (Option.map f) Collection.sourceless (record x) (record y) := by
  subst h
  rcases x with e | a
  · exact .bind (.update fun _ => rfl) fun _ => .pure rfl
  · exact .pure rfl

theorem note_commutes (p : Precondition) :
    StateM.Commutes id Collection.sourceless (note p) (note p.sourceless) := by
  refine .update fun c => ?_
  simp [Collection.sourceless]

theorem forM_note_commutes (ps : List Precondition) :
    StateM.Commutes id Collection.sourceless (ps.forM note)
      ((ps.map Precondition.sourceless).forM note) := by
  induction ps with
  | nil => exact .pure rfl
  | cons p ps ih => exact .bind (note_commutes p) fun _ => ih

theorem noteSpill_commutes (form : StmtForm) :
    StateM.Commutes id Collection.sourceless (noteSpill form) (noteSpill form.sourceless) := by
  cases form with
  | assignment target value =>
      obtain ⟨target, type, source⟩ := target
      cases target with
      | temporary id =>
          refine .update fun c => ?_
          rw [show c.sourceless.spills.resolve value.sourceless = _ from
            c.spills.resolve_sourceless value]
          rcases c.spills.resolve value with _ | resolved
          · exact congrArg (Collection.mk _ · _) (c.spills.erase_sourceless id).symm
          · rfl
      | _ => exact .pure rfl
  | _ => exact .pure rfl

theorem noteReceiver_commutes (receiver : Option Expr) (ref : MemberRef) :
    StateM.Commutes id Collection.sourceless (noteReceiver u receiver ref)
      (noteReceiver u.sourceless (exprSourceless receiver) ref) := by
  rcases receiver with _ | receiver
  · exact .pure rfl
  · refine .bind (record_commutes (u.member_sourceless ref)) fun member => ?_
    rcases member with _ | member
    · exact .pure rfl
    · dsimp only [Option.map_some]
      rw [member.isStatic_sourceless]
      split
      · refine .get fun c => ?_
        rw [show c.sourceless.spills.resolve receiver.sourceless = _ from
          c.spills.resolve_sourceless receiver]
        rcases c.spills.resolve receiver with _ | resolved
        · exact .pure rfl
        · exact note_commutes (.nonNull resolved)
      · exact .pure rfl

theorem noteCall_commutes (callee : Expr) :
    StateM.Commutes id Collection.sourceless (noteCall u callee)
      (noteCall u.sourceless callee.sourceless) := by
  obtain ⟨form, type, source⟩ := callee
  cases form with
  | member receiver ref =>
      refine .bind (record_commutes (u.member_sourceless ref)) fun member => ?_
      rcases member with _ | member
      · exact .pure rfl
      · dsimp only [Option.map_some, Option.bind_some]
        rw [member.method?_sourceless]
        rcases member.method? with _ | method
        · exact .pure rfl
        · exact forM_note_commutes method.preconditions
  | _ => exact .pure rfl

theorem visitor_commutes :
    Visitor.Commutes Collection.sourceless (visitor u) (visitor u.sourceless) where
  block := fun hw => hw
  stmt := by
    intro s walk walk' hw
    obtain ⟨form, source⟩ := s
    exact .bind (noteSpill_commutes form) fun _ => hw
  expr := fun hw => hw
  member := fun hw => .bind (noteReceiver_commutes u _ _) fun _ => hw
  call := fun hw => .bind (noteCall_commutes u _) fun _ => hw

theorem collect_sourceless (block : Block) :
    collect u.sourceless block.sourceless = (collect u block).sourceless :=
  congrArg Prod.snd ((visitor_commutes u).visitBlock block {})

theorem finishMethod_commutes (ref : MemberRef) :
    PassM.Commutes id PreconditionSet.sourceless (finishMethod ref) (finishMethod ref) := by
  unfold finishMethod
  refine .get fun s => ?_
  refine .bind (.modifyState fun _ => rfl) fun _ => ?_
  have hempty : (s.sourceless PreconditionSet.sourceless).state.isEmpty = s.state.isEmpty :=
    List.isEmpty_map
  have hsize : (s.sourceless PreconditionSet.sourceless).state.size = s.state.size :=
    List.length_map _
  have hvisible : s.types.sourceless.isExternallyVisible ref =
      (s.types.isExternallyVisible ref).map id := by
    rw [Except.map_id]
    exact sourcelessView.isExternallyVisible_view s.types ref
  dsimp only
  rw [hempty, hsize]
  split
  · exact .pure rfl
  · refine .bind (.ofExcept hvisible) fun visible => ?_
    dsimp only [id_eq]
    split
    · refine .bind (.ofExcept (s.types.member_sourceless ref)) fun member => ?_
      have hevents : TraceEvent.unprovenPreconditions member.name s.state.size ::
          (s.state.items.map Precondition.sourceless).map (.unprovenPrecondition member.name) =
          (TraceEvent.unprovenPreconditions member.name s.state.size ::
            s.state.items.map (.unprovenPrecondition member.name)).map TraceEvent.sourceless := by
        simp [TraceEvent.sourceless]
      have hemit := PassM.Commutes.emit (g := PreconditionSet.sourceless)
        (TraceEvent.unprovenPreconditions member.name s.state.size ::
          s.state.items.map (.unprovenPrecondition member.name))
      rw [← hevents] at hemit
      exact hemit
    · refine .bind (.emit _) fun _ => .bind (.ofExcept (s.types.method_sourceless ref)) fun _ => ?_
      exact .modifyTypes fun u => u.sourceless_modifyMethod ref fun _ => rfl

theorem pass_commutes : pass.Commutes PreconditionSet.sourceless where
  beginUnit := fun _ _ => rfl
  endUnit := fun _ _ => rfl
  editBody := by
    intro u ref body state
    show EditedBody.Agrees PreconditionSet.sourceless (editBody u ref body state)
      (editBody u.sourceless ref body.sourceless state.sourceless)
    unfold editBody
    rw [show collect u.sourceless body.sourceless.block = _ from collect_sourceless u body.block]
    obtain ⟨facts, spills, failure⟩ := collect u body.block
    refine ⟨rfl, ?_, rfl, rfl⟩
    cases failure with
    | none => exact PreconditionSet.ofList_sourceless facts
    | some e => rfl
  finishMethod := finishMethod_commutes

end Preconditions

/-! ## The pipeline -/

namespace Pipeline

def sourceless (p : Pipeline) : Pipeline := { p with preconditions := p.preconditions.sourceless }

variable (unit : CompilationUnit) (errors : Sink)

theorem mayContinue_commutes :
    PassM.Commutes id sourceless (mayContinue errors)
      (mayContinue (errors.map Diagnostic.sourceless)) := by
  unfold mayContinue
  rw [Sink.hasErrors_sourceless, List.length_map]
  refine .get fun s => ?_
  show PassM.Commutes id sourceless _
    (if s.state.config.stopOnError && errors.hasErrors then _ else _)
  split
  · exact .bind (.emit _) fun _ => .pure rfl
  · exact .pure rfl

theorem runPass_commutes (enabled : PipelineConfig → Bool) (name : String)
    {action image : PassM Pipeline Unit} (ha : PassM.Commutes id sourceless action image) :
    PassM.Commutes id sourceless (runPass enabled errors name action)
      (runPass enabled (errors.map Diagnostic.sourceless) name image) := by
  unfold runPass
  refine .get fun s => ?_
  show PassM.Commutes id sourceless _ (if enabled s.state.config then _ else _)
  split
  · refine .bind (mayContinue_commutes errors) fun continues => ?_
    dsimp only [id_eq]
    split
    · exact .bind ha fun _ => .pure rfl
    · exact .pure rfl
  · exact .pure rfl

theorem run_commutes :
    PassM.Commutes id sourceless (run unit errors)
      (run unit.sourceless (errors.map Diagnostic.sourceless)) := by
  have hguard : PassM.Commutes id sourceless (runGuard unit) (runGuard unit.sourceless) :=
    .get fun s => .onPart (fun _ => rfl) (fun _ _ => rfl)
      ((Guard.pass_commutes s.state.wellKnown).editUnit unit)
  have hconditional : PassM.Commutes id sourceless (runConditional unit)
      (runConditional unit.sourceless) :=
    .onPart (fun _ => rfl) (fun _ _ => rfl) (Conditional.pass_commutes.editUnit unit)
  have hpreconditions : PassM.Commutes id sourceless (runPreconditions unit)
      (runPreconditions unit.sourceless) :=
    .onPart (fun _ => rfl) (fun _ _ => rfl) (Preconditions.pass_commutes.editUnit unit)
  unfold run
  refine .bind (runPass_commutes errors _ _ hguard) fun _ => ?_
  refine .bind (runPass_commutes errors _ _ hconditional) fun _ => ?_
  refine .bind (runPass_commutes errors _ _ hpreconditions) fun _ => ?_
  refine .get fun s => ?_
  exact .bind (.emit _) fun _ => .pure rfl

end Pipeline

theorem Compilation.finish_commutes (config : PipelineConfig) (unit : CompilationUnit)
    (errors : Sink) :
    PassM.Commutes id id (finish config unit errors)
      (finish config unit.sourceless (errors.map Diagnostic.sourceless)) := by
  unfold finish withState
  refine .get fun s => ?_
  have hknown : WellKnown.ofUniverse (s.sourceless id).types =
      (WellKnown.ofUniverse s.types).map id := by
    rw [Except.map_id]
    exact sourcelessView.wellKnown_view s.types
  refine .bind (.ofExcept hknown) fun wellKnown => ?_
  refine .bind (.onPart (fun _ => rfl) (fun _ _ => rfl) (Binding.pass_commutes.editUnit unit))
    fun _ => ?_
  refine .bind (Contracts.install_commutes unit wellKnown.guardType) fun _ => ?_
  exact .onPart (fun _ => rfl) (fun _ _ => rfl) (Pipeline.run_commutes unit errors)

end MiddleEnd
