/-
  Lowered code is not bound to anything yet: whatever the code tree, no expression names a member,
  not even inside types. Lowering code also leaves the module alone.
-/
import MiddleEnd.Lowering.Code
import MiddleEnd.Proofs.Code.Occurrence

namespace MiddleEnd

namespace Lower

variable {σ α β : Type}

/-- Whatever the state, the result has the property and the module stays. -/
def Yields (action : Lower σ α) (post : α → Prop) : Prop :=
  ∀ s, post (action s).1 ∧ (action s).2.module = s.module

namespace Yields

theorem pure {a : α} {post : α → Prop} (h : post a) : (Pure.pure a : Lower σ α).Yields post :=
  fun _ => ⟨h, rfl⟩

theorem bind {action : Lower σ α} {next : α → Lower σ β} {mid : α → Prop} {post : β → Prop}
    (h : action.Yields mid) (hn : ∀ a, mid a → (next a).Yields post) :
    Lower.Yields (action >>= next) post := by
  intro s
  obtain ⟨ha, hm⟩ := h s
  obtain ⟨hb, hm'⟩ := hn _ ha (action s).2
  exact ⟨hb, hm'.trans hm⟩

theorem emit (event : TraceEvent) : (Lower.emit event : Lower σ Unit).Yields fun _ => True :=
  fun _ => ⟨trivial, rfl⟩

theorem ask (action : StateM σ α) : (Lower.ask action).Yields fun _ => True :=
  fun _ => ⟨trivial, rfl⟩

theorem modify {f : LoweringState σ → LoweringState σ} (hf : ∀ s, (f s).module = s.module) :
    (modifyGet fun s => ((), f s) : Lower σ Unit).Yields fun _ => True :=
  fun s => ⟨trivial, hf s⟩

theorem unexpected (kind : String) (source : Option SourceContext) :
    (Lower.unexpected kind source : Lower σ Unit).Yields fun _ => True := fun _ => ⟨trivial, rfl⟩

theorem snippetDocument (host : Host σ) (pragma : Option CodeTree.LinePragma) (text : String) :
    (Lower.snippetDocument host pragma text).Yields fun _ => True := by
  cases pragma <;> exact fun _ => ⟨trivial, rfl⟩

end Yields

end Lower

namespace Lowering

open Lower

/-! ## Names and types -/

theorem qualifyFrom_memberFree (pieces : List (List Char)) {head : Expr}
    (h : MemberFree (head.exprs true)) : MemberFree ((qualifyFrom head pieces).exprs true) := by
  induction pieces generalizing head with
  | nil => exact h
  | cons piece pieces ih =>
      refine ih ?_
      simp [ExprForm.expr, h]

theorem identifier_memberFree (name : String) : MemberFree ((Expr.identifier name).exprs true) := by
  simp [Expr.identifier, ExprForm.expr]

theorem qualify_memberFree (dotted : String) : MemberFree ((qualify dotted).exprs true) := by
  unfold qualify
  split
  · exact qualifyFrom_memberFree _ (identifier_memberFree _)
  · exact qualifyFrom_memberFree _ (identifier_memberFree _)
  · exact identifier_memberFree _

mutual

@[simp]
theorem typeRef_memberFree : (type : CodeTree.TypeReference) →
    MemberFree ((typeRef type).exprs true)
  | ⟨baseType, element, rank⟩ => by
      rw [typeRef]
      exact elementRef_memberFree baseType rank element

theorem elementRef_memberFree (baseType : String) (rank : UInt32) :
    (element : Option CodeTree.TypeReference) →
      MemberFree ((elementRef baseType rank element).exprs true)
  | some element => by
      rw [elementRef, TypeRef.exprs]
      exact typeRef_memberFree element
  | none => by
      rw [elementRef, TypeRef.exprs, if_pos rfl]
      exact qualify_memberFree baseType

end

theorem returnType_memberFree (type : Option CodeTree.TypeReference) :
    MemberFree ((returnType type).exprs true) := by
  cases type with
  | none => simp [returnType, TypeRef.void]
  | some type => exact typeRef_memberFree type

/-! ## Expressions -/

section

variable {σ : Type} (host : Host σ)

mutual

theorem expr_yields : (e : CodeTree.Expr) →
    (expr host e).Yields fun e => MemberFree (optionExprs true e)
  | ⟨form, source⟩ => by
      rw [expr]
      exact exprForm_yields source form

theorem operand_yields : (e : CodeTree.Expr) →
    (operand host e).Yields fun e => MemberFree (e.exprs true)
  | ⟨form, source⟩ => by
      rw [operand]
      refine .bind (exprForm_yields source form) fun e he => .pure ?_
      cases e with
      | none => simp [Expr.missing, ExprForm.expr]
      | some e => exact he

theorem operands_yields : (es : List CodeTree.Expr) →
    (operands host es).Yields fun es => MemberFree (exprsExprs true es)
  | [] => .pure namesOnly_nil
  | e :: es => by
      rw [operands]
      refine .bind (operand_yields e) fun e he => .bind (operands_yields es) fun es hes => .pure ?_
      exact namesOnly_append.mpr ⟨he, hes⟩

theorem nameOf_yields (name : String) : (target : Option CodeTree.Expr) →
    (nameOf host name target).Yields fun form =>
      MemberFree (form.exprs true) ∧ ∀ receiver ref, form ≠ .member receiver ref
  | none => .pure ⟨namesOnly_nil, nofun⟩
  | some target => by
      rw [nameOf]
      exact .bind (operand_yields target) fun e he => .pure ⟨he, nofun⟩

theorem arraySizeOf_yields (count : Nat) (size : Int32) : (sizeExpr : Option CodeTree.Expr) →
    (arraySizeOf host count size sizeExpr).Yields fun e => MemberFree (e.exprs true)
  | none => .pure (by simp [Expr.literal])
  | some sizeExpr => by
      rw [arraySizeOf]
      exact operand_yields sizeExpr

theorem exprForm_yields (source : Option SourceContext) : (form : CodeTree.ExprForm) →
    (exprForm host source form).Yields fun e => MemberFree (optionExprs true e)
  | .unrecognized kind => by
      rw [exprForm]
      exact .bind (.unexpected kind source) fun _ _ => .pure namesOnly_nil
  | .argumentRef name => by
      rw [exprForm]
      exact .pure (by simp)
  | .arrayCreate type initializers size sizeExpr => by
      rw [exprForm]
      refine .bind (operands_yields initializers) fun es hes => ?_
      refine .bind (arraySizeOf_yields es.length size sizeExpr) fun e he => .pure ?_
      simp [he, hes]
  | .arrayIndexer target indices => by
      rw [exprForm]
      refine .bind (operand_yields target) fun e he => ?_
      exact .bind (operands_yields indices) fun es hes => .pure (by simp [he, hes])
  | .indexer target indices => by
      rw [exprForm]
      refine .bind (operand_yields target) fun e he => ?_
      exact .bind (operands_yields indices) fun es hes => .pure (by simp [he, hes])
  | .baseRef => by
      rw [exprForm]
      exact .pure (by simp)
  | .binary left op right => by
      rw [exprForm]
      refine .bind (operand_yields left) fun l hl => .bind (operand_yields right) fun r hr => ?_
      split
      · exact .pure (by simp [hl, hr])
      · exact .pure (by simp [hl, hr])
  | .cast type inner => by
      rw [exprForm]
      exact .bind (operand_yields inner) fun e he => .pure (by simp [he])
  | .delegateCreate type target method => by
      rw [exprForm]
      exact .bind (operand_yields target) fun e he => .pure (by simp [he])
  | .delegateInvoke target arguments => by
      rw [exprForm]
      refine .bind (operand_yields target) fun e he => ?_
      refine .bind (operands_yields arguments) fun es hes => .pure ?_
      simp [ExprForm.expr, he, hes]
  | .direction direction inner => by
      cases direction with
      | input =>
          rw [exprForm]
          exact expr_yields inner
      | output =>
          rw [exprForm]
          · exact .bind (operand_yields inner) fun e he => .pure (by simp [he])
          · nofun
      | reference =>
          rw [exprForm]
          · exact .bind (operand_yields inner) fun e he => .pure (by simp [he])
          · nofun
  | .eventRef target name => by
      rw [exprForm]
      exact .bind (operand_yields target) fun e he => .pure (by simp [he])
  | .fieldRef target name => by
      rw [exprForm]
      exact .bind (nameOf_yields name target) fun form hf => .pure (by simp [hf.1, hf.2])
  | .methodInvoke target method arguments => by
      rw [exprForm]
      refine .bind (nameOf_yields method target) fun form hf => ?_
      refine .bind (operands_yields arguments) fun es hes => .pure ?_
      simp [ExprForm.expr, hf.1, hf.2, hes]
  | .methodRef target method => by
      rw [exprForm]
      exact .bind (nameOf_yields method target) fun form hf => .pure (by simp [hf.1, hf.2])
  | .objectCreate type arguments => by
      rw [exprForm]
      exact .bind (operands_yields arguments) fun es hes => .pure (by simp [hes])
  | .primitive value => by
      rw [exprForm]
      exact .pure (by simp [Expr.literal])
  | .propertyRef target name => by
      rw [exprForm]
      exact .bind (operand_yields target) fun e he => .pure (by simp [he])
  | .setterValue => by
      rw [exprForm]
      exact .pure (by simp)
  | .snippet value => by
      rw [exprForm]
      exact .bind (.snippetDocument host none value) fun _ _ => .pure (by simp)
  | .thisRef => by
      rw [exprForm]
      exact .pure (by simp)
  | .typeOf type => by
      rw [exprForm]
      exact .pure (by simp)
  | .typeRef type => by
      rw [exprForm]
      exact .pure (by simp)
  | .variableRef name => by
      rw [exprForm]
      exact .pure (by simp)

end

theorem exprOption_yields (e : Option CodeTree.Expr) :
    (exprOption host e).Yields fun e => MemberFree (optionExprs true e) := by
  cases e with
  | none => exact .pure namesOnly_nil
  | some e => exact expr_yields host e

/-! ## Statements -/

mutual

theorem stmt_yields : (s : CodeTree.Stmt) →
    (stmt host s).Yields fun s => MemberFree (labeledExprs true s)
  | ⟨form, source⟩ => by
      rw [stmt]
      exact stmtForm_yields source form

theorem stmts_yields : (ss : List CodeTree.Stmt) →
    (stmts host ss).Yields fun ss => MemberFree (stmtsExprs true ss)
  | [] => .pure namesOnly_nil
  | s :: ss => by
      rw [stmts]
      refine .bind (stmt_yields s) fun s hs => .bind (stmts_yields ss) fun ss hss => .pure ?_
      cases s with
      | none => exact hss
      | some s => exact namesOnly_append.mpr ⟨hs, hss⟩

theorem stmtOption_yields : (s : Option CodeTree.Stmt) →
    (stmtOption host s).Yields fun s => MemberFree (labeledExprs true s)
  | none => .pure namesOnly_nil
  | some s => by
      rw [stmtOption]
      exact stmt_yields s

theorem catchers_yields : (cs : List CodeTree.CatchClause) →
    (catchers host cs).Yields fun cs => MemberFree (catchersExprs true cs)
  | [] => .pure namesOnly_nil
  | ⟨localName, exceptionType, statements⟩ :: cs => by
      rw [catchers]
      refine .bind (stmts_yields statements) fun ss hss => ?_
      refine .bind (catchers_yields cs) fun cs hcs => .pure ?_
      cases exceptionType with
      | none => simp [hss, hcs]
      | some type => simp [hss, hcs]

theorem stmtForm_yields (source : Option SourceContext) : (form : CodeTree.StmtForm) →
    (stmtForm host source form).Yields fun s => MemberFree (labeledExprs true s)
  | .unrecognized kind => by
      rw [stmtForm]
      exact .bind (.unexpected kind source) fun _ _ => .pure namesOnly_nil
  | .comment _ => .pure namesOnly_nil
  | .assign left right => by
      rw [stmtForm]
      refine .bind (operand_yields host left) fun l hl => ?_
      refine .bind (operand_yields host right) fun r hr => .pure ?_
      exact namesOnly_append.mpr ⟨hl, hr⟩
  | .attachEvent event listener => by
      rw [stmtForm]
      refine .bind (operand_yields host event) fun e he => ?_
      refine .bind (operand_yields host listener) fun l hl => .pure ?_
      exact namesOnly_append.mpr ⟨he, hl⟩
  | .removeEvent event listener => by
      rw [stmtForm]
      refine .bind (operand_yields host event) fun e he => ?_
      refine .bind (operand_yields host listener) fun l hl => .pure ?_
      exact namesOnly_append.mpr ⟨he, hl⟩
  | .condition condition whenTrue whenFalse => by
      rw [stmtForm]
      refine .bind (operand_yields host condition) fun c hc => ?_
      refine .bind (stmts_yields whenTrue) fun ts ht => ?_
      refine .bind (stmts_yields whenFalse) fun fs hf => .pure ?_
      simp [hc, ht, hf]
  | .expression expression => by
      rw [stmtForm]
      refine .bind (expr_yields host expression) fun e he => ?_
      cases e with
      | none => exact .pure namesOnly_nil
      | some e => exact .pure he
  | .goto label => .pure namesOnly_nil
  | .iteration init test increment body => by
      rw [stmtForm]
      refine .bind (stmtOption_yields init) fun i hi => ?_
      refine .bind (exprOption_yields host test) fun t ht => ?_
      refine .bind (stmtOption_yields increment) fun n hn => ?_
      refine .bind (stmts_yields body) fun ss hss => .pure ?_
      cases i <;> cases n <;> simp_all
  | .labeled label statement => by
      rw [stmtForm]
      exact .bind (stmtOption_yields statement) fun s hs => .pure hs
  | .methodReturn value => by
      rw [stmtForm]
      exact .bind (exprOption_yields host value) fun e he => .pure he
  | .snippet value pragma => by
      rw [stmtForm]
      exact .bind (.snippetDocument host pragma value) fun _ _ => .pure namesOnly_nil
  | .throwException value => by
      rw [stmtForm]
      exact .bind (exprOption_yields host value) fun e he => .pure he
  | .tryCatchFinally body catches last => by
      rw [stmtForm]
      refine .bind (stmts_yields body) fun bs hb => ?_
      refine .bind (catchers_yields catches) fun cs hc => ?_
      refine .bind (stmts_yields last) fun ls hl => .pure ?_
      split
      · simp [hb, hc]
      · simp [hb, hc, hl]
  | .variableDeclaration name type init => by
      rw [stmtForm]
      exact .bind (exprOption_yields host init) fun e he => .pure (by simp [he])

end

theorem block_yields (statements : List CodeTree.Stmt) :
    (block host statements).Yields fun b => MemberFree (b.exprs true) :=
  .bind (stmts_yields host statements) fun _ hss => .pure hss

end

end Lowering

end MiddleEnd
