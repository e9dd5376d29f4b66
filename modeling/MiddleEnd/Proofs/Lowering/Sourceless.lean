/-
  Lowering hands sources on and never looks at them. A tree without sources is lowered to the same
  unit and module as the tree itself, up to sources, with the same reports (`unit_commutes`). The
  source of a snippet is made from its text, not from the source of its node, so it is the same
  for both.
-/
import MiddleEnd.Proofs.Code.Commuting
import MiddleEnd.Proofs.CodeTree.Recasting
import MiddleEnd.Proofs.Lowering.Accounting
import MiddleEnd.Proofs.Universe.Sourceless

namespace MiddleEnd

namespace CodeTree

/-- No node has a source. -/
def Recasting.sourceless : Recasting where
  source := fun _ => none

/-- The tree with the sources of all its nodes erased. -/
def CompileUnit.sourceless (u : CompileUnit) : CompileUnit := Recasting.sourceless.onUnit u

end CodeTree

open CodeTree (Recasting)

def LoweringState.sourceless {σ : Type} (s : LoweringState σ) : LoweringState σ :=
  { s with
    module := s.module.sourceless
    errors := s.errors.map Diagnostic.sourceless
    trace := s.trace.map TraceEvent.sourceless }

namespace Lower

variable {σ α β : Type}

abbrev Commutes (f : α → β) (action : Lower σ α) (image : Lower σ β) : Prop :=
  StateM.Commutes f LoweringState.sourceless action image

namespace Commutes

theorem emit (event : TraceEvent) :
    Commutes id (Lower.emit event : Lower σ Unit) (Lower.emit event.sourceless) := by
  refine .update fun s => ?_
  simp [LoweringState.sourceless]

theorem ask (action : StateM σ α) : Commutes id (Lower.ask action) (Lower.ask action) :=
  fun _ => rfl

theorem modifyModule {f f' : Module → Module} (h : ∀ m, (f m).sourceless = f' m.sourceless) :
    Commutes id (Lower.modifyModule f : Lower σ Unit) (Lower.modifyModule f') := by
  refine .update fun s => ?_
  simp [LoweringState.sourceless, h]

theorem addType (node : TypeNode) :
    Commutes id (Lower.addType node : Lower σ TypeId) (Lower.addType node.sourceless) := by
  have hadd : ∀ m : Module, m.sourceless.addType node.sourceless =
      ((m.addType node).1.sourceless, (m.addType node).2) := by
    intro m
    simp [Module.addType, Module.sourceless, Arena.push, Arena.map, Arena.nextIndex, Arena.size,
      TypeNode.sourceless]
  intro s
  show ((s.module.sourceless.addType node.sourceless).2,
    { s.sourceless with module := (s.module.sourceless.addType node.sourceless).1 }) = _
  rw [hadd]
  rfl

theorem unexpected (kind : String) (source : Option SourceContext) :
    Commutes id (Lower.unexpected kind source : Lower σ Unit) (Lower.unexpected kind none) := by
  refine .bind (emit _) fun _ => .update fun s => ?_
  simp [LoweringState.sourceless, Sink.report, Diagnostic.sourceless]

theorem snippetDocument (host : Host σ) (pragma : Option CodeTree.LinePragma) (text : String) :
    Commutes id (Lower.snippetDocument host pragma text)
      (Lower.snippetDocument host pragma text) := by
  cases pragma <;> exact ask _

theorem mapM {γ : Type} {lower : α → Lower σ β} {recast : α → α} {f : β → γ}
    {lower' : α → Lower σ γ} (h : ∀ a, Commutes f (lower a) (lower' (recast a))) (as : List α) :
    Commutes (List.map f) (as.mapM lower) ((as.map recast).mapM lower') := by
  induction as with
  | nil =>
      rw [List.map_nil, List.mapM_nil, List.mapM_nil]
      exact .pure rfl
  | cons a as ih =>
      rw [List.map_cons, List.mapM_cons, List.mapM_cons]
      exact .bind (h a) fun _ => .bind ih fun _ => .pure rfl

end Commutes

end Lower

namespace Lowering

open Lower

variable {σ : Type} (host : Host σ)

/-! ## Expressions -/

mutual

theorem expr_commutes : (e : CodeTree.Expr) →
    Commutes exprSourceless (expr host e) (expr host (Recasting.sourceless.onExpr e))
  | ⟨form, source⟩ => by
      rw [Recasting.onExpr, expr, expr]
      exact exprForm_commutes source form

theorem operand_commutes : (e : CodeTree.Expr) →
    Commutes Expr.sourceless (operand host e) (operand host (Recasting.sourceless.onExpr e))
  | ⟨form, source⟩ => by
      rw [Recasting.onExpr, operand, operand]
      refine .bind (exprForm_commutes source form) fun e => .pure ?_
      cases e <;> rfl

theorem operands_commutes : (es : List CodeTree.Expr) →
    Commutes exprsSourceless (operands host es) (operands host (Recasting.sourceless.onExprs es))
  | [] => .pure rfl
  | e :: es => by
      rw [Recasting.onExprs, operands, operands]
      exact .bind (operand_commutes e) fun _ => .bind (operands_commutes es) fun _ => .pure rfl

/-- What follows sees that a name is no snippet. -/
theorem nameOf_commutes {α β : Type} {f : α → β} {next : ExprForm → Lower σ α}
    {next' : ExprForm → Lower σ β} (name : String)
    (hbare : Commutes f (next (.identifier name)) (next' (.identifier name)))
    (hbehind : ∀ target, Commutes f (next (.qualified target name))
      (next' (.qualified target.sourceless name))) : (target : Option CodeTree.Expr) →
    Commutes f (nameOf host name target >>= next)
      (nameOf host name (Recasting.sourceless.onExprOption target) >>= next')
  | none => hbare
  | some target => by
      rw [Recasting.onExprOption, nameOf, nameOf, bind_assoc, bind_assoc]
      exact .bind (operand_commutes target) hbehind

theorem arraySizeOf_commutes (count : Nat) (size : Int32) : (sizeExpr : Option CodeTree.Expr) →
    Commutes Expr.sourceless (arraySizeOf host count size sizeExpr)
      (arraySizeOf host count size (Recasting.sourceless.onExprOption sizeExpr))
  | none => .pure rfl
  | some sizeExpr => by
      rw [Recasting.onExprOption, arraySizeOf, arraySizeOf]
      exact operand_commutes sizeExpr

theorem exprForm_commutes (source : Option SourceContext) : (form : CodeTree.ExprForm) →
    Commutes exprSourceless (exprForm host source form)
      (exprForm host none (Recasting.sourceless.onExprForm form))
  | .unrecognized kind => .bind (Commutes.unexpected kind source) fun _ => .pure rfl
  | .arrayCreate type initializers size sizeExpr => by
      rw [Recasting.onExprForm, exprForm, exprForm]
      refine .bind (operands_commutes initializers) fun values => ?_
      rw [show (exprsSourceless values).length = values.length by
        rw [exprsSourceless_eq_map, List.length_map]]
      exact .bind (arraySizeOf_commutes _ size sizeExpr) fun _ => .pure rfl
  | .arrayIndexer target indices => by
      rw [Recasting.onExprForm, exprForm, exprForm]
      exact .bind (operand_commutes target) fun _ => .bind (operands_commutes indices) fun _ =>
        .pure rfl
  | .indexer target indices => by
      rw [Recasting.onExprForm, exprForm, exprForm]
      exact .bind (operand_commutes target) fun _ => .bind (operands_commutes indices) fun _ =>
        .pure rfl
  | .binary left op right => by
      rw [Recasting.onExprForm, exprForm, exprForm]
      refine .bind (operand_commutes left) fun _ => .bind (operand_commutes right) fun _ => ?_
      rcases binaryOp? op with _ | op <;> exact .pure rfl
  | .cast type inner => by
      rw [Recasting.onExprForm, exprForm, exprForm]
      exact .bind (operand_commutes inner) fun _ => .pure rfl
  | .delegateCreate type target method => by
      rw [Recasting.onExprForm, exprForm, exprForm]
      exact .bind (operand_commutes target) fun _ => .pure rfl
  | .delegateInvoke target arguments => by
      rw [Recasting.onExprForm, exprForm, exprForm]
      exact .bind (operand_commutes target) fun _ => .bind (operands_commutes arguments) fun _ =>
        .pure rfl
  | .direction .input inner => by
      rw [Recasting.onExprForm, exprForm, exprForm]
      exact expr_commutes inner
  | .direction .output inner => .bind (operand_commutes inner) fun _ => .pure rfl
  | .direction .reference inner => .bind (operand_commutes inner) fun _ => .pure rfl
  | .eventRef target name => by
      rw [Recasting.onExprForm, exprForm, exprForm]
      exact .bind (operand_commutes target) fun _ => .pure rfl
  | .fieldRef target name => by
      rw [Recasting.onExprForm, exprForm, exprForm]
      refine nameOf_commutes name ?_ (fun _ => ?_) target <;> exact .pure rfl
  | .methodInvoke target method arguments => by
      rw [Recasting.onExprForm, exprForm, exprForm]
      refine nameOf_commutes method ?_ (fun _ => ?_) target <;>
        exact .bind (operands_commutes arguments) fun _ => .pure rfl
  | .methodRef target method => by
      rw [Recasting.onExprForm, exprForm, exprForm]
      refine nameOf_commutes method ?_ (fun _ => ?_) target <;> exact .pure rfl
  | .objectCreate type arguments => by
      rw [Recasting.onExprForm, exprForm, exprForm]
      exact .bind (operands_commutes arguments) fun _ => .pure rfl
  | .propertyRef target name => by
      rw [Recasting.onExprForm, exprForm, exprForm]
      exact .bind (operand_commutes target) fun _ => .pure rfl
  | .snippet value => by
      rw [Recasting.onExprForm, exprForm, exprForm]
      exact .bind (Commutes.snippetDocument host none value) fun _ => .pure rfl
  | .argumentRef _ | .baseRef | .primitive _ | .setterValue | .thisRef | .typeOf _ | .typeRef _
  | .variableRef _ => .pure rfl

end

theorem exprOption_commutes (e : Option CodeTree.Expr) :
    Commutes exprSourceless (exprOption host e)
      (exprOption host (Recasting.sourceless.onExprOption e)) := by
  cases e with
  | none => exact .pure rfl
  | some e => exact expr_commutes host e

/-! ## Statements -/

mutual

theorem stmt_commutes : (s : CodeTree.Stmt) →
    Commutes labeledSourceless (stmt host s) (stmt host (Recasting.sourceless.onStmt s))
  | ⟨form, source⟩ => by
      rw [Recasting.onStmt, stmt, stmt]
      exact stmtForm_commutes source form

theorem stmts_commutes : (ss : List CodeTree.Stmt) →
    Commutes stmtsSourceless (stmts host ss) (stmts host (Recasting.sourceless.onStmts ss))
  | [] => .pure rfl
  | s :: ss => by
      rw [Recasting.onStmts, stmts, stmts]
      refine .bind (stmt_commutes s) fun lowered => .bind (stmts_commutes ss) fun _ => .pure ?_
      cases lowered <;> rfl

theorem stmtOption_commutes : (s : Option CodeTree.Stmt) →
    Commutes labeledSourceless (stmtOption host s)
      (stmtOption host (Recasting.sourceless.onStmtOption s))
  | none => .pure rfl
  | some s => by
      rw [Recasting.onStmtOption, stmtOption, stmtOption]
      exact stmt_commutes s

theorem catchers_commutes : (cs : List CodeTree.CatchClause) →
    Commutes catchersSourceless (catchers host cs)
      (catchers host (Recasting.sourceless.onCatches cs))
  | [] => .pure rfl
  | ⟨localName, exceptionType, statements⟩ :: cs => by
      rw [Recasting.onCatches, catchers, catchers]
      exact .bind (stmts_commutes statements) fun _ => .bind (catchers_commutes cs) fun _ =>
        .pure rfl

theorem stmtForm_commutes (source : Option SourceContext) : (form : CodeTree.StmtForm) →
    Commutes labeledSourceless (stmtForm host source form)
      (stmtForm host none (Recasting.sourceless.onStmtForm form))
  | .unrecognized kind => .bind (Commutes.unexpected kind source) fun _ => .pure rfl
  | .assign left right => by
      rw [Recasting.onStmtForm, stmtForm, stmtForm]
      exact .bind (operand_commutes host left) fun _ => .bind (operand_commutes host right) fun _ =>
        .pure rfl
  | .attachEvent event listener => by
      rw [Recasting.onStmtForm, stmtForm, stmtForm]
      exact .bind (operand_commutes host event) fun _ =>
        .bind (operand_commutes host listener) fun _ => .pure rfl
  | .removeEvent event listener => by
      rw [Recasting.onStmtForm, stmtForm, stmtForm]
      exact .bind (operand_commutes host event) fun _ =>
        .bind (operand_commutes host listener) fun _ => .pure rfl
  | .condition condition whenTrue whenFalse => by
      rw [Recasting.onStmtForm, stmtForm, stmtForm]
      exact .bind (operand_commutes host condition) fun _ =>
        .bind (stmts_commutes whenTrue) fun _ => .bind (stmts_commutes whenFalse) fun _ => .pure rfl
  | .expression expression => by
      rw [Recasting.onStmtForm, stmtForm, stmtForm]
      refine .bind (expr_commutes host expression) fun e => ?_
      cases e <;> exact .pure rfl
  | .iteration init test increment body => by
      have htoList : ∀ s : Option Stmt,
          stmtsSourceless s.toList = (labeledSourceless s).toList := by
        intro s
        cases s <;> rfl
      rw [Recasting.onStmtForm, stmtForm, stmtForm]
      refine .bind (stmtOption_commutes init) fun init => ?_
      refine .bind (exprOption_commutes host test) fun test => ?_
      refine .bind (stmtOption_commutes increment) fun increment => ?_
      refine .bind (stmts_commutes body) fun statements => .pure ?_
      rw [← htoList, ← htoList]
      rfl
  | .labeled label statement => by
      rw [Recasting.onStmtForm, stmtForm, stmtForm]
      exact .bind (stmtOption_commutes statement) fun _ => .pure rfl
  | .methodReturn value => by
      rw [Recasting.onStmtForm, stmtForm, stmtForm]
      exact .bind (exprOption_commutes host value) fun _ => .pure rfl
  | .snippet value pragma => by
      rw [Recasting.onStmtForm, stmtForm, stmtForm]
      exact .bind (Commutes.snippetDocument host pragma value) fun _ => .pure rfl
  | .throwException value => by
      rw [Recasting.onStmtForm, stmtForm, stmtForm]
      exact .bind (exprOption_commutes host value) fun _ => .pure rfl
  | .tryCatchFinally body catches last => by
      have hempty : (Recasting.sourceless.onStmts last).isEmpty = last.isEmpty := by
        cases last <;> rfl
      rw [Recasting.onStmtForm, stmtForm, stmtForm, hempty]
      refine .bind (stmts_commutes body) fun _ => .bind (catchers_commutes catches) fun _ => ?_
      refine .bind (stmts_commutes last) fun _ => .pure ?_
      cases last.isEmpty <;> rfl
  | .variableDeclaration name type init => by
      rw [Recasting.onStmtForm, stmtForm, stmtForm]
      exact .bind (exprOption_commutes host init) fun _ => .pure rfl
  | .comment _ | .goto _ => .pure rfl

end

/-! ## Members -/

theorem attributeArguments_commutes (as : List CodeTree.AttributeArgument) :
    Commutes (List.map AttributeArgument.sourceless) (attributeArguments host as)
      (attributeArguments host (as.map Recasting.sourceless.onArgument)) := by
  induction as with
  | nil => exact .pure rfl
  | cons a as ih =>
      refine .bind (expr_commutes host a.value) fun value => .bind ih fun rest => ?_
      obtain ⟨name, _⟩ := a
      cases value with
      | none => exact .pure rfl
      | some value =>
          cases name with
          | none => exact .pure rfl
          | some name =>
              refine .pure ?_
              by_cases hname : name = "" <;> simp [hname, AttributeArgument.sourceless]

theorem attributes_commutes (as : List CodeTree.Attribute) :
    Commutes (List.map Attribute.sourceless) (attributes host as)
      (attributes host (as.map Recasting.sourceless.onAttribute)) := by
  refine Commutes.mapM (fun a => ?_) as
  exact .bind (attributeArguments_commutes host a.arguments) fun _ => .pure rfl

theorem parameters_commutes (ps : List CodeTree.Parameter) :
    Commutes (List.map Parameter.sourceless) (parameters host ps)
      (parameters host (ps.map Recasting.sourceless.onParameter)) := by
  refine Commutes.mapM (fun p => ?_) ps
  exact .bind (attributes_commutes host p.customAttributes) fun _ => .pure rfl

theorem conditionalSymbol?_sourceless (as : List CodeTree.Attribute) :
    conditionalSymbol? (as.map Recasting.sourceless.onAttribute) = conditionalSymbol? as := by
  have hsymbol : ∀ a, symbolArgument? (Recasting.sourceless.onAttribute a) = symbolArgument? a := by
    intro a
    have hfind : (a.arguments.map Recasting.sourceless.onArgument).find? isPositional =
        (a.arguments.find? isPositional).map Recasting.sourceless.onArgument := List.find?_map
    rw [symbolArgument?, symbolArgument?, show (Recasting.sourceless.onAttribute a).arguments =
      a.arguments.map Recasting.sourceless.onArgument from rfl, hfind]
    rcases a.arguments.find? isPositional with _ | ⟨name, ⟨form, source⟩⟩
    · rfl
    · cases form with
      | primitive value => cases value <;> rfl
      | _ => rfl
  unfold conditionalSymbol?
  rw [List.filter_map, List.findSome?_map]
  congr 1
  funext a
  exact hsymbol a

/-! The members of one owner. -/

section

variable (owner : Owner) (source : Option SourceContext)

theorem fieldMember_commutes (d : CodeTree.FieldDeclaration) :
    Commutes Member.sourceless (fieldMember host owner source d)
      (fieldMember host owner none (Recasting.sourceless.onField d)) := by
  have hliteral : ∀ e : Option Expr,
      (exprSourceless e).bind Expr.literal? = e.bind Expr.literal? := by
    intro e
    rcases e with _ | ⟨form, type, source⟩
    · rfl
    · cases form <;> rfl
  unfold fieldMember enumField ordinaryField
  split
  · refine .bind (.bind (exprOption_commutes host d.init) fun init => .pure ?_) fun _ =>
      .bind (attributes_commutes host d.customAttributes) fun _ => .pure rfl
    rw [hliteral]
    rfl
  · exact .bind (.bind (exprOption_commutes host d.init) fun _ => .pure rfl) fun _ =>
      .bind (attributes_commutes host d.customAttributes) fun _ => .pure rfl

theorem bodyOf_commutes (flags : MethodFlags) (statements : List CodeTree.Stmt) :
    Commutes (Option.map Body.sourceless) (bodyOf host owner flags statements)
      (bodyOf host owner flags (Recasting.sourceless.onStmts statements)) := by
  unfold bodyOf
  split
  · exact .bind (.bind (stmts_commutes host statements) fun _ => .pure rfl) fun _ => .pure rfl
  · exact .pure rfl

theorem methodMember_commutes (name : String) (modifiers : CodeTree.MemberAttributes)
    (d : CodeTree.MethodDeclaration) :
    Commutes Member.sourceless (methodMember host owner source name modifiers d)
      (methodMember host owner none name modifiers (Recasting.sourceless.onMethod d)) := by
  refine .bind (parameters_commutes host d.parameters) fun _ => ?_
  refine .bind (attributes_commutes host d.returnAttributes) fun _ => ?_
  refine .bind (bodyOf_commutes host owner _ d.statements) fun _ => ?_
  refine .bind (attributes_commutes host d.customAttributes) fun _ => .pure ?_
  rw [show conditionalSymbol? (Recasting.sourceless.onMethod d).customAttributes = _ from
    conditionalSymbol?_sourceless d.customAttributes]
  rfl

theorem chainArguments_commutes (es : List CodeTree.Expr) :
    Commutes exprsSourceless (chainArguments host es)
      (chainArguments host (Recasting.sourceless.onExprs es)) := by
  induction es with
  | nil => exact .pure rfl
  | cons e es ih =>
      refine .bind (expr_commutes host e) fun lowered => .bind ih fun _ => .pure ?_
      cases lowered <;> rfl

theorem constructorMember_commutes (d : CodeTree.ConstructorDeclaration) :
    Commutes Member.sourceless (constructorMember host owner source d)
      (constructorMember host owner none (Recasting.sourceless.onConstructor d)) := by
  have hempty : (Recasting.sourceless.onExprs d.chainedArguments).isEmpty =
      d.chainedArguments.isEmpty := by
    cases d.chainedArguments <;> rfl
  have hpassed : (Recasting.sourceless.onConstructor d).passedOn =
      Recasting.sourceless.onExprs d.passedOn := by
    show (if (Recasting.sourceless.onExprs d.chainedArguments).isEmpty then _ else _) = _
    rw [hempty, CodeTree.ConstructorDeclaration.passedOn]
    split <;> rfl
  rw [constructorMember_eq, constructorMember_eq, hpassed]
  refine .bind (chainArguments_commutes host d.passedOn) fun arguments => ?_
  refine .bind (stmts_commutes host d.statements) fun _ => ?_
  refine .bind (parameters_commutes host d.parameters) fun _ => ?_
  refine .bind (attributes_commutes host d.customAttributes) fun _ => .pure ?_
  rw [show (Recasting.sourceless.onConstructor d).chainedArguments.isEmpty = _ from hempty]
  split <;> rfl

theorem accessor_commutes (declared : Bool) (name : String) {method method' : Method}
    (hmethod : method.sourceless = method') (statements : List CodeTree.Stmt) :
    Commutes (List.map Member.sourceless)
      (accessor host owner source declared name method statements)
      (accessor host owner none declared name method'
        (Recasting.sourceless.onStmts statements)) := by
  subst hmethod
  unfold accessor
  split
  · exact .bind (bodyOf_commutes host owner method.flags statements) fun _ => .pure rfl
  · exact .pure rfl

theorem propertyMembers_commutes (position : Nat) (d : CodeTree.PropertyDeclaration) :
    Commutes (List.map Member.sourceless) (propertyMembers host owner source position d)
      (propertyMembers host owner none position (Recasting.sourceless.onProperty d)) := by
  refine .bind (parameters_commutes host d.parameters) fun parameters => ?_
  refine .bind (accessor_commutes host owner source d.hasGet _ rfl d.getStatements) fun getter => ?_
  refine .bind (accessor_commutes host owner source d.hasSet _ ?_ d.setStatements) fun setter => ?_
  · rw [Method.sourceless, List.map_append]
    rfl
  refine .bind (attributes_commutes host d.customAttributes) fun _ => .pure ?_
  rw [List.map_append, List.map_append, List.length_map]
  rfl

theorem eventMember_commutes (d : CodeTree.EventDeclaration) :
    Commutes Member.sourceless (eventMember host owner source d)
      (eventMember host owner none (Recasting.sourceless.onEvent d)) :=
  .bind (attributes_commutes host d.customAttributes) fun _ => .pure rfl

end

/-! ## Types -/

section

variable (kind : CodeTree.TypeKind)

theorem typeKind_commutes (baseTypes : List CodeTree.TypeReference) :
    Commutes TypeKind.sourceless (typeKind host baseTypes kind)
      (typeKind host baseTypes (Recasting.sourceless.onTypeKind kind)) := by
  cases kind with
  | delegateType ps type => exact .bind (parameters_commutes host ps) fun _ => .pure rfl
  | _ => exact .pure rfl

theorem interfaces_sourceless (baseTypes : List CodeTree.TypeReference) :
    interfaces baseTypes (Recasting.sourceless.onTypeKind kind) = interfaces baseTypes kind := by
  cases kind <;> rfl

theorem isDelegate_sourceless :
    (Recasting.sourceless.onTypeKind kind).isDelegate = kind.isDelegate := by
  cases kind <;> rfl

theorem ownerOf_sourceless (id : TypeId) :
    ownerOf id (Recasting.sourceless.onTypeKind kind) = ownerOf id kind := by
  cases kind <;> rfl

theorem withConstructor_sourceless (id : TypeId) (members : List Member) :
    withConstructor (Recasting.sourceless.onTypeKind kind) id (members.map Member.sourceless) =
      (withConstructor kind id members).map Member.sourceless := by
  have hclass : isClass (Recasting.sourceless.onTypeKind kind) = isClass kind := by
    cases kind <;> rfl
  have hconstructor : ∀ m : Member, isConstructor m.sourceless = isConstructor m := by
    intro m
    unfold isConstructor
    rw [m.method?_sourceless]
    cases m.method? <;> rfl
  unfold withConstructor
  rw [hclass, List.any_map, show isConstructor ∘ Member.sourceless = isConstructor from
    funext hconstructor]
  split
  · rw [List.map_append]
    rfl
  · rfl

end

mutual

theorem typeDeclaration_commutes (ns : String) (outer : Option TypeId) :
    (d : CodeTree.TypeDeclaration) →
      Commutes id (typeDeclaration host ns outer d)
        (typeDeclaration host ns outer (Recasting.sourceless.onType d))
  | ⟨name, kind, modifiers, baseTypes, declared, customAttributes, source⟩ => by
      rw [Recasting.onType, typeDeclaration, typeDeclaration]
      refine .bind (typeKind_commutes host kind baseTypes) fun nodeKind => ?_
      refine .bind (attributes_commutes host customAttributes) fun attributes => ?_
      refine .get fun s => ?_
      rw [isDelegate_sourceless, interfaces_sourceless]
      refine .bind (Commutes.addType _) fun id => ?_
      split
      · exact .pure rfl
      · rw [id_eq, ownerOf_sourceless]
        refine .bind (members_commutes (ownerOf id kind) 0 declared) fun members => ?_
        rw [withConstructor_sourceless]
        dsimp only
        rw [List.length_map]
        refine .bind (Commutes.emit _) fun _ => .bind (Commutes.modifyModule fun m => ?_) fun _ =>
          .pure rfl
        exact sourcelessView.module_modifyType m id fun _ => rfl

theorem members_commutes (owner : Owner) (position : Nat) : (ms : List CodeTree.Member) →
    Commutes (List.map Member.sourceless) (members host owner position ms)
      (members host owner position (Recasting.sourceless.onMembers ms))
  | [] => .pure rfl
  | m :: ms => by
      rw [Recasting.onMembers, members, members]
      refine .bind (member_commutes owner position m) fun first => ?_
      rw [List.length_map]
      exact .bind (members_commutes owner (position + first.length) ms) fun _ =>
        .pure List.map_append

theorem member_commutes (owner : Owner) (position : Nat) : (m : CodeTree.Member) →
    Commutes (List.map Member.sourceless) (member host owner position m)
      (member host owner position (Recasting.sourceless.onMember m))
  | ⟨.unrecognized kind, source⟩ => by
      rw [Recasting.onMember, Recasting.onMemberForm, member]
      exact .bind (Commutes.unexpected kind source) fun _ => .pure rfl
  | ⟨.field d, source⟩ => by
      rw [Recasting.onMember, Recasting.onMemberForm, member, member]
      exact .bind (fieldMember_commutes host owner source d) fun _ => .pure rfl
  | ⟨.method d, source⟩ => by
      rw [Recasting.onMember, Recasting.onMemberForm, member, member]
      exact .bind (methodMember_commutes host owner source d.name d.attributes d) fun _ => .pure rfl
  | ⟨.entryPoint d, source⟩ => by
      rw [Recasting.onMember, Recasting.onMemberForm, member, member]
      exact .bind (methodMember_commutes host owner source "Main" .publicStatic d) fun _ =>
        .pure rfl
  | ⟨.constructor d, source⟩ => by
      rw [Recasting.onMember, Recasting.onMemberForm, member, member]
      exact .bind (constructorMember_commutes host owner source d) fun _ => .pure rfl
  | ⟨.property d, source⟩ => by
      rw [Recasting.onMember, Recasting.onMemberForm, member, member]
      exact propertyMembers_commutes host owner source position d
  | ⟨.event d, source⟩ => by
      rw [Recasting.onMember, Recasting.onMemberForm, member, member]
      exact .bind (eventMember_commutes host owner source d) fun _ => .pure rfl
  | ⟨.snippet text pragma, source⟩ => by
      rw [Recasting.onMember, Recasting.onMemberForm, member, member]
      exact .bind (Commutes.snippetDocument host pragma text) fun _ => .pure rfl
  | ⟨.nestedType d, source⟩ => by
      have hname : (Recasting.sourceless.onType d).name = d.name := by
        cases d
        rw [Recasting.onType]
      rw [Recasting.onMember, Recasting.onMemberForm, member, member, hname]
      exact .bind (typeDeclaration_commutes "" (some owner.id) d) fun _ => .pure rfl

end

/-! ## Units -/

theorem namespaceNode_commutes (n : CodeTree.Namespace) :
    Commutes Namespace.sourceless (namespaceNode host n)
      (namespaceNode host (Recasting.sourceless.onNamespace n)) := by
  have htypes := Commutes.mapM (typeDeclaration_commutes host n.name none) n.types
  rw [List.map_id_fun] at htypes
  exact .bind htypes fun _ => .pure rfl

theorem references_commutes (names : List String) (seen : List String) :
    Commutes id (references host seen names) (references host seen names) := by
  induction names generalizing seen with
  | nil => exact .pure rfl
  | cons name names ih =>
      rw [references]
      refine .bind (Commutes.ask _) fun answer => ?_
      rcases answer with error | reference
      · refine .bind (Commutes.emit _) fun _ => .bind (.update fun s => ?_) fun _ => ih seen
        simp [LoweringState.sourceless, Diagnostic.sourceless]
      · dsimp only [id_eq]
        split
        · exact .bind (Commutes.emit _) fun _ => ih seen
        · exact .bind (Commutes.modifyModule fun _ => rfl) fun _ => ih _

theorem unitSource_commutes (s : CodeTree.UnitSnippet) :
    Commutes id (unitSource host s) (unitSource host s) := by
  unfold unitSource
  cases s.pragma with
  | some pragma => exact .bind (Commutes.ask _) fun _ => .pure rfl
  | none => exact .get fun _ => .bind (Commutes.ask _) fun _ => .pure rfl

/-- A tree and the same tree without its sources are lowered to the same unit and the same module,
    with the same reports and the same questions to the host, up to sources. -/
theorem unit_commutes (u : CodeTree.CompileUnit) :
    Commutes CompilationUnit.sourceless (unit host u) (unit host u.sourceless) := by
  unfold unit CodeTree.CompileUnit.sourceless Recasting.onUnit
  refine .get fun s₀ => ?_
  refine .bind (attributes_commutes host u.assemblyAttributes) fun attributes => ?_
  have hmodule : ∀ m : Module,
      ({ m with attributes := m.attributes ++ attributes } : Module).sourceless =
      { m.sourceless with
        attributes := m.sourceless.attributes ++ attributes.map Attribute.sourceless } := by
    intro m
    simp [Module.sourceless]
  refine .bind (Commutes.modifyModule hmodule) fun _ => .get fun s => ?_
  refine .bind (references_commutes host u.referencedAssemblies _) fun _ => ?_
  refine .bind (Commutes.mapM (namespaceNode_commutes host) u.namespaces) fun namespaces => ?_
  have hlast : ∀ result : CompilationUnit, Commutes CompilationUnit.sourceless
      (do
        let s ← get
        emit (.loweredUnit s.module.name s.module.types.size (s.errors.length - s₀.errors.length))
        return result)
      (do
        let s ← get
        emit (.loweredUnit s.module.name s.module.types.size
          (s.errors.length - s₀.sourceless.errors.length))
        return result.sourceless : Lower σ CompilationUnit) := by
    intro result
    refine .get fun s => ?_
    have htypes : s.sourceless.module.types.size = s.module.types.size := Array.size_map
    have herrors : ∀ s : LoweringState σ, s.sourceless.errors.length = s.errors.length :=
      fun s => List.length_map _
    rw [htypes, herrors, herrors]
    exact .bind (Commutes.emit _) fun _ => .pure rfl
  dsimp only
  cases u.snippet with
  | none =>
      refine .bind (.pure ?_) hlast
      rw [← namespacesSourceless_eq_map]
      rfl
  | some snippet =>
      refine .bind (unitSource_commutes host snippet) fun source => .bind (.pure ?_) hlast
      rw [← namespacesSourceless_eq_map]
      rfl

end Lowering

end MiddleEnd
