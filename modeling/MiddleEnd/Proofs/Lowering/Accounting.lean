/-
  What lowering reports. Each node of unknown shape that lowering meets gives one error, in the
  order of the tree, and nothing else does, assembly references apart (`unit_reports`).

  A report is never looked at again. What an action gives, what it does to the module and what it
  asks of the host are the same whatever the sink and the trace hold (`Reports.alike`).
-/
import MiddleEnd.Proofs.Code.Editing
import MiddleEnd.Proofs.CodeTree.Unknown
import MiddleEnd.Proofs.Lowering.Declaration

namespace MiddleEnd

open CodeTree (UnknownNode)

namespace Lower

variable {σ α β : Type}

/-! ## Actions that do not look at the sink -/

/-- From states that differ at most in sink and trace, both actions give the same result, the same
    module and the same host. -/
def Alike (first second : Lower σ α) : Prop :=
  ∀ s t, s.module = t.module → s.host = t.host →
    (first s).1 = (second t).1 ∧ (first s).2.module = (second t).2.module ∧
      (first s).2.host = (second t).2.host

namespace Alike

theorem pure (a : α) : Alike (Pure.pure a : Lower σ α) (Pure.pure a) :=
  fun _ _ hm hh => ⟨rfl, hm, hh⟩

theorem bind {first second : Lower σ α} {next next' : α → Lower σ β} (h : first.Alike second)
    (hn : ∀ a, (next a).Alike (next' a)) : Alike (first >>= next) (second >>= next') := by
  intro s t hm hh
  obtain ⟨ha, hm', hh'⟩ := h s t hm hh
  have hrun : (first >>= next) s = next (second t).1 (first s).2 :=
    congrArg (fun a => next a (first s).2) ha
  rw [hrun]
  exact hn (second t).1 (first s).2 (second t).2 hm' hh'

theorem emit (event event' : TraceEvent) :
    Alike (Lower.emit event : Lower σ Unit) (Lower.emit event') :=
  fun _ _ hm hh => ⟨rfl, hm, hh⟩

theorem ask (action : StateM σ α) : Alike (Lower.ask action) (Lower.ask action) := by
  intro s t hm hh
  show (action s.host).1 = (action t.host).1 ∧ s.module = t.module ∧
    (action s.host).2 = (action t.host).2
  rw [hh]
  exact ⟨rfl, hm, rfl⟩

theorem get {next next' : LoweringState σ → Lower σ β}
    (h : ∀ s t, s.module = t.module → (next s).Alike (next' t)) :
    Alike (MonadState.get >>= next) (MonadState.get >>= next') :=
  fun s t hm hh => h s t hm s t hm hh

theorem modifyModule (f : Module → Module) :
    Alike (Lower.modifyModule f : Lower σ Unit) (Lower.modifyModule f) :=
  fun _ _ hm hh => ⟨rfl, congrArg f hm, hh⟩

theorem addType (t : TypeNode) : Alike (Lower.addType t : Lower σ TypeId) (Lower.addType t) :=
  fun _ _ hm hh => ⟨congrArg (fun m => (m.addType t).2) hm,
    congrArg (fun m => (m.addType t).1) hm, hh⟩

/-- A report changes nothing that counts. -/
theorem unexpected (kind : String) (source : Option SourceContext) :
    Alike (Lower.unexpected kind source : Lower σ Unit) (Pure.pure ()) :=
  fun _ _ hm hh => ⟨rfl, hm, hh⟩

end Alike

/-! ## Reports -/

/-- The action reports these nodes, one after the other, and does not look at the sink. -/
structure Reports (action : Lower σ α) (nodes : List UnknownNode) : Prop where
  errors : ∀ s, (action s).2.errors = s.errors ++ nodes.map UnknownNode.diagnostic
  alike : action.Alike action

namespace Reports

variable {nodes nodes' : List UnknownNode}

theorem pure (a : α) : (Pure.pure a : Lower σ α).Reports [] :=
  ⟨fun _ => (List.append_nil _).symm, .pure a⟩

theorem bind {action : Lower σ α} {next : α → Lower σ β} (h : action.Reports nodes)
    (hn : ∀ a, (next a).Reports nodes') : Lower.Reports (action >>= next) (nodes ++ nodes') := by
  refine ⟨fun s => ?_, h.alike.bind fun a => (hn a).alike⟩
  show (next (action s).1 (action s).2).2.errors = _
  rw [(hn _).errors, h.errors, List.map_append, List.append_assoc]

/-- First an action that reports nothing. -/
theorem behind {action : Lower σ α} {next : α → Lower σ β} (h : action.Reports [])
    (hn : ∀ a, (next a).Reports nodes) : Lower.Reports (action >>= next) nodes :=
  h.bind hn

/-- The result of an action, put into a node. -/
theorem into {action : Lower σ α} (h : action.Reports nodes) (f : α → β) :
    Lower.Reports (action >>= fun a => Pure.pure (f a)) nodes := by
  simpa using h.bind fun a => pure (f a)

/-- What follows may depend on the module that is read, and on nothing else. -/
theorem get {next : LoweringState σ → Lower σ β} (hn : ∀ s, (next s).Reports nodes)
    (hm : ∀ s t, s.module = t.module → next s = next t) :
    Lower.Reports (MonadState.get >>= next) nodes := by
  refine ⟨fun s => (hn s).errors s, .get fun s t h => ?_⟩
  rw [hm s t h]
  exact (hn t).alike

theorem emit (event : TraceEvent) : (Lower.emit event : Lower σ Unit).Reports [] :=
  ⟨fun _ => (List.append_nil _).symm, .emit event event⟩

theorem ask (action : StateM σ α) : (Lower.ask action).Reports [] :=
  ⟨fun _ => (List.append_nil _).symm, .ask action⟩

theorem modifyModule (f : Module → Module) : (Lower.modifyModule f : Lower σ Unit).Reports [] :=
  ⟨fun _ => (List.append_nil _).symm, .modifyModule f⟩

theorem addType (t : TypeNode) : (Lower.addType t : Lower σ TypeId).Reports [] :=
  ⟨fun _ => (List.append_nil _).symm, .addType t⟩

theorem unexpected (n : UnknownNode) :
    (Lower.unexpected n.kind n.source : Lower σ Unit).Reports [n] :=
  ⟨fun _ => rfl, fun _ _ hm hh => ⟨rfl, hm, hh⟩⟩

theorem snippetDocument (host : Host σ) (pragma : Option CodeTree.LinePragma) (text : String) :
    (Lower.snippetDocument host pragma text).Reports [] := by
  cases pragma <;> exact ask _

theorem mapM {f : α → Lower σ β} {nodesOf : α → List UnknownNode}
    (h : ∀ a, (f a).Reports (nodesOf a)) (as : List α) :
    Lower.Reports (as.mapM f) (as.flatMap nodesOf) := by
  induction as with
  | nil =>
      rw [List.mapM_nil]
      exact pure []
  | cons a as ih =>
      rw [List.mapM_cons]
      exact (h a).bind fun b => ih.into (b :: ·)

end Reports

end Lower

namespace Lowering

open Lower CodeTree

variable {σ : Type} (host : Host σ)

/-! ## Expressions -/

mutual

theorem expr_reports : (e : CodeTree.Expr) → (expr host e).Reports e.unknown
  | ⟨form, source⟩ => by
      rw [expr, Expr.unknown]
      exact exprForm_reports source form

theorem operand_reports : (e : CodeTree.Expr) → (operand host e).Reports e.unknown
  | ⟨form, source⟩ => by
      rw [operand, Expr.unknown]
      exact (exprForm_reports source form).into _

theorem operands_reports : (es : List CodeTree.Expr) →
    (operands host es).Reports (exprsUnknown es)
  | [] => by
      rw [operands, exprsUnknown]
      exact .pure []
  | e :: es => by
      rw [operands, exprsUnknown]
      exact .bind (operand_reports e) fun e => (operands_reports es).into _

theorem nameOf_reports (name : String) : (target : Option CodeTree.Expr) →
    (nameOf host name target).Reports (optionUnknown target)
  | none => by
      rw [nameOf, optionUnknown]
      exact .pure _
  | some target => by
      rw [nameOf, optionUnknown]
      exact (operand_reports target).into _

theorem arraySizeOf_reports (count : Nat) (size : Int32) : (sizeExpr : Option CodeTree.Expr) →
    (arraySizeOf host count size sizeExpr).Reports (optionUnknown sizeExpr)
  | none => by
      rw [arraySizeOf, optionUnknown]
      exact .pure _
  | some sizeExpr => by
      rw [arraySizeOf, optionUnknown]
      exact operand_reports sizeExpr

theorem exprForm_reports (source : Option SourceContext) : (form : CodeTree.ExprForm) →
    (exprForm host source form).Reports (form.unknown source)
  | .unrecognized kind => by
      rw [exprForm, ExprForm.unknown]
      exact (Reports.unexpected ⟨.expression, kind, source⟩).into _
  | .arrayCreate type initializers size sizeExpr => by
      rw [exprForm, ExprForm.unknown]
      exact .bind (operands_reports initializers) fun es =>
        (arraySizeOf_reports es.length size sizeExpr).into _
  | .arrayIndexer target indices => by
      rw [exprForm, ExprForm.unknown]
      exact .bind (operand_reports target) fun _ => (operands_reports indices).into _
  | .indexer target indices => by
      rw [exprForm, ExprForm.unknown]
      exact .bind (operand_reports target) fun _ => (operands_reports indices).into _
  | .binary left op right => by
      rw [exprForm, ExprForm.unknown]
      cases binaryOp? op with
      | some op => exact .bind (operand_reports left) fun _ => (operand_reports right).into _
      | none => exact .bind (operand_reports left) fun _ => (operand_reports right).into _
  | .cast type inner => by
      rw [exprForm, ExprForm.unknown]
      exact (operand_reports inner).into _
  | .delegateCreate type target method => by
      rw [exprForm, ExprForm.unknown]
      exact (operand_reports target).into _
  | .delegateInvoke target arguments => by
      rw [exprForm, ExprForm.unknown]
      exact .bind (operand_reports target) fun _ => (operands_reports arguments).into _
  | .direction direction inner => by
      cases direction with
      | input =>
          rw [exprForm, ExprForm.unknown]
          exact expr_reports inner
      | output =>
          rw [exprForm, ExprForm.unknown]
          · exact (operand_reports inner).into _
          · nofun
      | reference =>
          rw [exprForm, ExprForm.unknown]
          · exact (operand_reports inner).into _
          · nofun
  | .eventRef target name => by
      rw [exprForm, ExprForm.unknown]
      exact (operand_reports target).into _
  | .fieldRef target name => by
      rw [exprForm, ExprForm.unknown]
      exact (nameOf_reports name target).into _
  | .methodInvoke target method arguments => by
      rw [exprForm, ExprForm.unknown]
      exact .bind (nameOf_reports method target) fun _ => (operands_reports arguments).into _
  | .methodRef target method => by
      rw [exprForm, ExprForm.unknown]
      exact (nameOf_reports method target).into _
  | .objectCreate type arguments => by
      rw [exprForm, ExprForm.unknown]
      exact (operands_reports arguments).into _
  | .propertyRef target name => by
      rw [exprForm, ExprForm.unknown]
      exact (operand_reports target).into _
  | .snippet value => by
      rw [exprForm, ExprForm.unknown]
      exact (Reports.snippetDocument host none value).into _
  | .argumentRef _ | .baseRef | .primitive _ | .setterValue | .thisRef | .typeOf _ | .typeRef _
  | .variableRef _ => by
      rw [exprForm, ExprForm.unknown]
      exact .pure _

end

theorem exprOption_reports (e : Option CodeTree.Expr) :
    (exprOption host e).Reports (optionUnknown e) := by
  cases e with
  | none => exact .pure none
  | some e => exact expr_reports host e

/-! ## Statements -/

mutual

theorem stmt_reports : (s : CodeTree.Stmt) → (stmt host s).Reports s.unknown
  | ⟨form, source⟩ => by
      rw [stmt, Stmt.unknown]
      exact stmtForm_reports source form

theorem stmts_reports : (ss : List CodeTree.Stmt) → (stmts host ss).Reports (stmtsUnknown ss)
  | [] => by
      rw [stmts, stmtsUnknown]
      exact .pure []
  | s :: ss => by
      rw [stmts, stmtsUnknown]
      exact .bind (stmt_reports s) fun _ => (stmts_reports ss).into _

theorem stmtOption_reports : (s : Option CodeTree.Stmt) →
    (stmtOption host s).Reports (stmtOptionUnknown s)
  | none => by
      rw [stmtOption, stmtOptionUnknown]
      exact .pure none
  | some s => by
      rw [stmtOption, stmtOptionUnknown]
      exact stmt_reports s

theorem catchers_reports : (cs : List CodeTree.CatchClause) →
    (catchers host cs).Reports (catchesUnknown cs)
  | [] => by
      rw [catchers, catchesUnknown]
      exact .pure []
  | ⟨localName, exceptionType, statements⟩ :: cs => by
      rw [catchers, catchesUnknown]
      exact .bind (stmts_reports statements) fun _ => (catchers_reports cs).into _

theorem stmtForm_reports (source : Option SourceContext) : (form : CodeTree.StmtForm) →
    (stmtForm host source form).Reports (form.unknown source)
  | .unrecognized kind => by
      rw [stmtForm, StmtForm.unknown]
      exact (Reports.unexpected ⟨.statement, kind, source⟩).into _
  | .assign left right => by
      rw [stmtForm, StmtForm.unknown]
      exact .bind (operand_reports host left) fun _ => (operand_reports host right).into _
  | .attachEvent event listener => by
      rw [stmtForm, StmtForm.unknown]
      exact .bind (operand_reports host event) fun _ => (operand_reports host listener).into _
  | .removeEvent event listener => by
      rw [stmtForm, StmtForm.unknown]
      exact .bind (operand_reports host event) fun _ => (operand_reports host listener).into _
  | .condition condition whenTrue whenFalse => by
      rw [stmtForm, StmtForm.unknown]
      exact .bind (operand_reports host condition) fun _ => .bind (stmts_reports whenTrue) fun _ =>
        (stmts_reports whenFalse).into _
  | .expression expression => by
      rw [stmtForm, StmtForm.unknown, ← List.append_nil expression.unknown]
      refine .bind (expr_reports host expression) fun e => ?_
      cases e with
      | none => exact .pure none
      | some e => exact .pure _
  | .iteration init test increment body => by
      rw [stmtForm, StmtForm.unknown]
      exact .bind (stmtOption_reports init) fun _ => .bind (exprOption_reports host test) fun _ =>
        .bind (stmtOption_reports increment) fun _ => (stmts_reports body).into _
  | .labeled label statement => by
      rw [stmtForm, StmtForm.unknown]
      exact (stmtOption_reports statement).into _
  | .methodReturn value => by
      rw [stmtForm, StmtForm.unknown]
      exact (exprOption_reports host value).into _
  | .snippet value pragma => by
      rw [stmtForm, StmtForm.unknown]
      exact (Reports.snippetDocument host pragma value).into _
  | .throwException value => by
      rw [stmtForm, StmtForm.unknown]
      exact (exprOption_reports host value).into _
  | .tryCatchFinally body catches last => by
      rw [stmtForm, StmtForm.unknown]
      exact .bind (stmts_reports body) fun _ => .bind (catchers_reports catches) fun _ =>
        (stmts_reports last).into _
  | .variableDeclaration name type init => by
      rw [stmtForm, StmtForm.unknown]
      exact (exprOption_reports host init).into _
  | .comment _ | .goto _ => by
      rw [stmtForm, StmtForm.unknown]
      exact .pure _

end

/-! ## Members -/

theorem attributeArguments_reports (as : List CodeTree.AttributeArgument) :
    (attributeArguments host as).Reports (as.flatMap fun a => a.value.unknown) := by
  induction as with
  | nil => exact .pure []
  | cons a as ih =>
      rw [attributeArguments, List.flatMap_cons]
      refine .bind (expr_reports host a.value) fun value => ?_
      rw [← List.append_nil (as.flatMap _)]
      refine .bind ih fun rest => ?_
      split <;> exact .pure _

theorem attributes_reports (as : List CodeTree.Attribute) :
    (attributes host as).Reports (attributesUnknown as) := by
  have each (a : CodeTree.Attribute) :
      (attributeUse host a).Reports (a.arguments.flatMap fun argument => argument.value.unknown) :=
    (attributeArguments_reports host a.arguments).into _
  exact .mapM each as

theorem parameters_reports (ps : List CodeTree.Parameter) :
    (parameters host ps).Reports (parametersUnknown ps) := by
  have each (p : CodeTree.Parameter) :
      (parameter host p).Reports (attributesUnknown p.customAttributes) :=
    (attributes_reports host p.customAttributes).into _
  exact .mapM each ps

section

variable (owner : Owner) (source : Option SourceContext)

theorem fieldMember_reports (d : CodeTree.FieldDeclaration) :
    (fieldMember host owner source d).Reports d.unknown := by
  have enum : (enumField host owner d).Reports (optionUnknown d.init) :=
    (exprOption_reports host d.init).into _
  have ordinary : (ordinaryField host d).Reports (optionUnknown d.init) :=
    (exprOption_reports host d.init).into _
  unfold fieldMember
  dsimp only
  split
  · exact .bind enum fun _ => (attributes_reports host d.customAttributes).into _
  · exact .bind ordinary fun _ => (attributes_reports host d.customAttributes).into _

theorem bodyOf_reports (modifiers : CodeTree.MemberAttributes) {flags : MethodFlags}
    (hf : flags.isStatic = isStatic modifiers) (statements : List CodeTree.Stmt) :
    (bodyOf host owner flags statements).Reports
      (bodyUnknown owner.isInterface modifiers statements) := by
  unfold bodyOf bodyUnknown Owner.givesBody
  rw [hf]
  cases owner.isInterface <;> cases isStatic modifiers
  · exact ((stmts_reports host statements).into _).into _
  · exact ((stmts_reports host statements).into _).into _
  · exact .pure none
  · exact ((stmts_reports host statements).into _).into _

theorem methodMember_reports (name : String) (modifiers : CodeTree.MemberAttributes)
    (d : CodeTree.MethodDeclaration) :
    (methodMember host owner source name modifiers d).Reports
      (d.unknown owner.isInterface modifiers) :=
  .bind (parameters_reports host d.parameters) fun _ =>
    .bind (attributes_reports host d.returnAttributes) fun _ =>
      .bind (bodyOf_reports host owner modifiers rfl d.statements) fun _ =>
        (attributes_reports host d.customAttributes).into _

theorem chainArguments_reports (es : List CodeTree.Expr) :
    (chainArguments host es).Reports (exprsUnknown es) := by
  induction es with
  | nil => exact .pure []
  | cons e es ih => exact .bind (expr_reports host e) fun _ => ih.into _

/-- The constructor that starts with the call `chain` of another one. -/
def constructorBehind (d : CodeTree.ConstructorDeclaration) (chain : Stmt) : Lower σ Member := do
  let statements ← stmts host d.statements
  let parameters ← parameters host d.parameters
  let attributes ← attributes host d.customAttributes
  return { name := constructorName, declaringType := owner.id, attributes, source
           kind := .method {
             kind := .instanceInitializer
             parameters
             flags := { methodFlags d.attributes with specialName := true, rtSpecialName := true }
             body := some { block := { statements := chain :: statements } } } }

/-- The two calls that a constructor can start with differ in their target and their arguments. -/
theorem constructorMember_eq (d : CodeTree.ConstructorDeclaration) :
    constructorMember host owner source d =
      (chainArguments host d.passedOn >>= fun arguments =>
        constructorBehind host owner source d
          (chainCall (if d.chainedArguments.isEmpty then .baseRef else .thisRef) arguments)) := by
  unfold constructorMember ConstructorDeclaration.passedOn
  dsimp only
  split <;> rfl

theorem constructorMember_reports (d : CodeTree.ConstructorDeclaration) :
    (constructorMember host owner source d).Reports d.unknown := by
  rw [constructorMember_eq]
  exact .bind (chainArguments_reports host d.passedOn) fun _ =>
    .bind (stmts_reports host d.statements) fun _ =>
      .bind (parameters_reports host d.parameters) fun _ =>
        (attributes_reports host d.customAttributes).into _

theorem accessor_reports (declared : Bool) (name : String)
    (modifiers : CodeTree.MemberAttributes) {method : Method}
    (hf : method.flags.isStatic = isStatic modifiers) (statements : List CodeTree.Stmt) :
    (accessor host owner source declared name method statements).Reports
      (if declared then bodyUnknown owner.isInterface modifiers statements else []) := by
  unfold accessor
  split
  · exact (bodyOf_reports host owner modifiers hf statements).into _
  · exact .pure []

theorem propertyMembers_reports (position : Nat) (d : CodeTree.PropertyDeclaration) :
    (propertyMembers host owner source position d).Reports (d.unknown owner.isInterface) :=
  .bind (parameters_reports host d.parameters) fun _ =>
    .bind (accessor_reports host owner source d.hasGet _ d.attributes rfl d.getStatements) fun _ =>
      .bind (accessor_reports host owner source d.hasSet _ d.attributes rfl d.setStatements)
        fun _ => (attributes_reports host d.customAttributes).into _

theorem eventMember_reports (d : CodeTree.EventDeclaration) :
    (eventMember host owner source d).Reports d.unknown :=
  (attributes_reports host d.customAttributes).into _

end

/-! ## Types -/

theorem typeKind_reports (baseTypes : List CodeTree.TypeReference) (kind : CodeTree.TypeKind) :
    (typeKind host baseTypes kind).Reports kind.unknown := by
  cases kind with
  | delegateType ps type => exact (parameters_reports host ps).into _
  | _ => exact .pure _

theorem ownerOf_isInterface (id : TypeId) (kind : CodeTree.TypeKind) :
    (ownerOf id kind).isInterface = kind.isInterface := by
  cases kind <;> rfl

mutual

theorem typeDeclaration_reports (ns : String) (outer : Option TypeId) :
    (d : CodeTree.TypeDeclaration) → (typeDeclaration host ns outer d).Reports d.unknown
  | ⟨name, kind, modifiers, baseTypes, declared, customAttributes, source⟩ => by
      rw [typeDeclaration, TypeDeclaration.unknown]
      refine .bind (typeKind_reports host baseTypes kind) fun _ => ?_
      refine .bind (attributes_reports host customAttributes) fun _ => ?_
      refine .get (fun s => ?_) fun s t h => by rw [h]
      refine .behind (.addType _) fun id => ?_
      split
      · exact .pure id
      · rw [← ownerOf_isInterface id kind, ← List.append_nil (membersUnknown _ _)]
        refine .bind (members_reports (ownerOf id kind) 0 declared) fun _ => ?_
        exact .behind (.emit _) fun _ => (Reports.modifyModule _).into _

theorem members_reports (owner : Owner) (position : Nat) : (ds : List CodeTree.Member) →
    (members host owner position ds).Reports (membersUnknown owner.isInterface ds)
  | [] => by
      rw [members, membersUnknown]
      exact .pure []
  | d :: ds => by
      rw [members, membersUnknown]
      exact .bind (member_reports owner position d) fun first =>
        (members_reports owner (position + first.length) ds).into _

theorem member_reports (owner : Owner) (position : Nat) : (d : CodeTree.Member) →
    (member host owner position d).Reports (d.unknown owner.isInterface)
  | ⟨.unrecognized kind, source⟩ => by
      rw [member, Member.unknown]
      exact (Reports.unexpected ⟨.member, kind, source⟩).into _
  | ⟨.field d, source⟩ => by
      rw [member, Member.unknown]
      exact (fieldMember_reports host owner source d).into _
  | ⟨.method d, source⟩ => by
      rw [member, Member.unknown]
      exact (methodMember_reports host owner source d.name d.attributes d).into _
  | ⟨.entryPoint d, source⟩ => by
      rw [member, Member.unknown]
      exact (methodMember_reports host owner source "Main" .publicStatic d).into _
  | ⟨.constructor d, source⟩ => by
      rw [member, Member.unknown]
      exact (constructorMember_reports host owner source d).into _
  | ⟨.property d, source⟩ => by
      rw [member, Member.unknown]
      exact propertyMembers_reports host owner source position d
  | ⟨.event d, source⟩ => by
      rw [member, Member.unknown]
      exact (eventMember_reports host owner source d).into _
  | ⟨.snippet text pragma, _⟩ => by
      rw [member, Member.unknown]
      exact (Reports.snippetDocument host pragma text).into _
  | ⟨.nestedType d, source⟩ => by
      rw [member, Member.unknown]
      exact (typeDeclaration_reports "" (some owner.id) d).into _

end

/-! ## Units -/

theorem namespaceNode_reports (n : CodeTree.Namespace) :
    (namespaceNode host n).Reports n.unknown :=
  (Reports.mapM (typeDeclaration_reports host n.name none) n.types).into _

theorem unitSource_reports (s : CodeTree.UnitSnippet) : (unitSource host s).Reports [] := by
  unfold unitSource
  dsimp only
  split
  · exact (Reports.ask _).into _
  · exact .get (fun s => (Reports.ask _).into _) fun s t h => by rw [h]

/-- The error for an assembly that is not found. -/
def unresolved (name : String) (error : ResolveError) : Diagnostic where
  level := .error
  kind := .reference
  argument := name
  notes := [error.message]

/-- The errors for the assemblies of a list that are not found, where `seen` are the keys that are
    referenced already and `h` is the host that is asked. -/
def unresolvedIn (seen : List String) : List String → σ → Sink
  | [], _ => []
  | name :: names, h =>
    match host.resolve name seen h with
    | (.ok reference, h) =>
      unresolvedIn (if seen.contains reference.key then seen else seen ++ [reference.key]) names h
    | (.error error, h) => unresolved name error :: unresolvedIn seen names h

theorem kind_unresolvedIn (names seen : List String) (h : σ) :
    ∀ d ∈ unresolvedIn host seen names h, d.kind = .reference := by
  induction names generalizing seen h with
  | nil => exact fun _ hd => absurd hd List.not_mem_nil
  | cons name names ih =>
      rw [unresolvedIn]
      split
      · exact ih _ _
      · exact List.forall_mem_cons.mpr ⟨rfl, ih _ _⟩

theorem references_errors (names seen : List String) (s : LoweringState σ) :
    (references host seen names s).2.errors = s.errors ++ unresolvedIn host seen names s.host := by
  induction names generalizing seen s with
  | nil => exact (List.append_nil _).symm
  | cons name names ih =>
      rcases hanswer : host.resolve name seen s.host with ⟨answer, h⟩
      have hask : Lower.ask (host.resolve name seen) s = (answer, { s with host := h }) := by
        rw [Lower.ask, hanswer]
      rw [references, StateM.bind_run, hask, unresolvedIn, hanswer]
      cases answer with
      | ok reference =>
          dsimp only
          split
          · exact ih seen { s with host := h, trace := s.trace ++ [.referencePresent name] }
          · exact ih (seen ++ [reference.key]) { s with
              host := h
              module := { s.module with references := s.module.references ++ [reference] } }
      | error error =>
          have hrest := ih seen { s with
            host := h
            trace := s.trace ++ [.referenceUnresolved name error]
            errors := s.errors ++ [unresolved name error] }
          rw [List.append_assoc] at hrest
          exact hrest

theorem references_alike (names seen : List String) :
    Alike (references host seen names) (references host seen names) := by
  induction names generalizing seen with
  | nil => exact .pure ()
  | cons name names ih =>
      rw [references]
      refine .bind (.ask _) fun answer => ?_
      split
      · split
        · exact .bind (.emit _ _) fun _ => ih seen
        · exact .bind (.modifyModule _) fun _ => ih _
      · refine .bind (.emit _ _) fun _ => .bind ?_ fun _ => ih seen
        exact fun _ _ hm hh => ⟨rfl, hm, hh⟩

/-- The errors for the assemblies that a unit refers to. They are asked for behind the attributes,
    whose snippets the host has seen by then. -/
def unresolvedOf (u : CodeTree.CompileUnit) (s : LoweringState σ) : Sink :=
  unresolvedIn host (s.module.references.map (·.key)).eraseDups u.referencedAssemblies
    (attributes host u.assemblyAttributes s).2.host

/-- The sink behind the lowering of a unit, entry by entry. -/
theorem unit_errors (u : CodeTree.CompileUnit) (s : LoweringState σ) :
    (unit host u s).2.errors = s.errors ++
      ((attributesUnknown u.assemblyAttributes).map UnknownNode.diagnostic ++
        (unresolvedOf host u s ++
          (namespacesUnknown u.namespaces).map UnknownNode.diagnostic)) := by
  let s₁ := (attributes host u.assemblyAttributes s).2
  let s₂ := { s₁ with module :=
    { s₁.module with attributes :=
      s₁.module.attributes ++ (attributes host u.assemblyAttributes s).1 } }
  let seen := (s₁.module.references.map (·.key)).eraseDups
  let s₃ := (references host seen u.referencedAssemblies s₂).2
  let s₄ := (u.namespaces.mapM (namespaceNode host) s₃).2
  have h₁ : s₁.errors = s.errors ++ (attributesUnknown u.assemblyAttributes).map _ :=
    (attributes_reports host u.assemblyAttributes).errors s
  have hm : s₁.module = s.module := (attributes_yields host u.assemblyAttributes s).2
  have h₃ : s₃.errors = s₁.errors ++ unresolvedOf host u s := by
    unfold unresolvedOf
    rw [← hm]
    exact references_errors host u.referencedAssemblies seen s₂
  have h₄ : s₄.errors = s₃.errors ++ (namespacesUnknown u.namespaces).map _ :=
    (Reports.mapM (namespaceNode_reports host) u.namespaces).errors s₃
  have hunit : (unit host u s).2.errors = s₄.errors := by
    unfold unit
    cases u.snippet with
    | none => rfl
    | some snippet =>
        have hsource := (unitSource_reports host snippet).errors s₄
        rw [List.map_nil, List.append_nil] at hsource
        exact hsource
  rw [hunit, h₄, h₃, h₁, List.append_assoc, List.append_assoc]

/-- Lowering keeps what the sink holds. Behind it, the errors about the shape of the tree are one
    for each node of unknown shape, in the order of the tree. -/
theorem unit_reports (u : CodeTree.CompileUnit) (s : LoweringState σ) :
    ∃ added, (unit host u s).2.errors = s.errors ++ added ∧
      added.filter (fun d => d.kind = .structural) = u.unknown.map UnknownNode.diagnostic := by
  refine ⟨_, unit_errors host u s, ?_⟩
  have structural (nodes : List UnknownNode) :
      (nodes.map UnknownNode.diagnostic).filter (fun d => d.kind = .structural) =
        nodes.map UnknownNode.diagnostic := by
    rw [List.filter_eq_self]
    intro d hd
    obtain ⟨n, -, rfl⟩ := List.mem_map.mp hd
    rfl
  have references : (unresolvedOf host u s).filter (fun d => d.kind = .structural) = [] := by
    rw [List.filter_eq_nil_iff]
    intro d hd
    rw [kind_unresolvedIn host _ _ _ d hd]
    decide
  rw [List.filter_append, List.filter_append, structural, structural, references, List.nil_append,
    CompileUnit.unknown, List.map_append]

end Lowering

end MiddleEnd
