/-
  Conditional elimination in closed universes. What is left of code names only members that the code
  named, and every callee can be looked up.
-/
import MiddleEnd.Proofs.Code.Names
import MiddleEnd.Proofs.Conditional.Survival
import MiddleEnd.Proofs.Pass.Run

namespace MiddleEnd.Conditional

section

variable (p : MemberRef → Prop) (dead : Expr → Bool)

/-- Members that are left were there. There is no state to look at. -/
abbrev Stays (es es' : List Expr) : Prop := Keeps p (fun _ : Unit => True) es () es' ()

mutual

theorem keepExpr_stays : (e : Expr) → {e' : Expr} → keepExpr dead e = some e' →
    Stays p (e.exprs true) (e'.exprs true)
  | ⟨form, type, source⟩ => fun h => keepForm_stays type source form h
termination_by structural x => x

theorem keepForm_stays (type : Option TypeRef) (source : Option SourceContext) :
    (form : ExprForm) → {e' : Expr} → keepForm dead type source form = some e' →
      Stays p (Expr.exprs true ⟨form, type, source⟩) (e'.exprs true)
  | .literal _ | .identifier _ | .thisRef | .baseRef | .setterValue | .typeExpr _ | .typeOf _
  | .snippet | .temporary _ | .missing => by
      rintro ⟨⟩
      exact .refl _
  | .qualified qualifier _ => fun h => by
      obtain ⟨_, hq, ⟨⟩⟩ := Option.bind_eq_some_iff.mp h
      exact .node nofun (keepExpr_stays qualifier hq)
  | .binary _ left right => fun h => by
      obtain ⟨_, hl, h⟩ := Option.bind_eq_some_iff.mp h
      obtain ⟨_, hr, ⟨⟩⟩ := Option.bind_eq_some_iff.mp h
      exact .node nofun (.append (keepExpr_stays left hl) (keepExpr_stays right hr))
  | .assignment statement => fun h => by
      obtain ⟨_, hs, ⟨⟩⟩ := Option.bind_eq_some_iff.mp h
      exact .node nofun (keepStmt_stays statement hs)
  | .cast operand _ => fun h => by
      obtain ⟨_, ho, ⟨⟩⟩ := Option.bind_eq_some_iff.mp h
      exact .node nofun (.append (keepExpr_stays operand ho) (.refl _))
  | .indexer object operands => fun h => by
      obtain ⟨_, ho, h⟩ := Option.bind_eq_some_iff.mp h
      obtain ⟨_, hs, ⟨⟩⟩ := Option.bind_eq_some_iff.mp h
      exact .node nofun (.append (keepExpr_stays object ho) (keepExprs_stays operands hs))
  | .constructArray _ size initializers => fun h => by
      obtain ⟨_, hs, h⟩ := Option.bind_eq_some_iff.mp h
      obtain ⟨_, hi, ⟨⟩⟩ := Option.bind_eq_some_iff.mp h
      exact .node nofun (.append (.append (.refl _) (keepExpr_stays size hs))
        (keepExprs_stays initializers hi))
  | .construct _ operands => fun h => by
      obtain ⟨_, ho, ⟨⟩⟩ := Option.bind_eq_some_iff.mp h
      exact .node nofun (.append (.refl _) (keepExprs_stays operands ho))
  | .constructDelegate _ target _ => fun h => by
      obtain ⟨_, ht, ⟨⟩⟩ := Option.bind_eq_some_iff.mp h
      exact .node nofun (.append (.refl _) (keepExpr_stays target ht))
  | .call callee arguments => fun h => by
      rw [keepForm] at h
      split at h
      · cases h
      · obtain ⟨_, hc, h⟩ := Option.bind_eq_some_iff.mp h
        obtain ⟨_, ha, ⟨⟩⟩ := Option.bind_eq_some_iff.mp h
        exact .node nofun (.append (keepExpr_stays callee hc) (keepExprs_stays arguments ha))
  | .member receiver ref => fun h => by
      obtain ⟨_, hr, ⟨⟩⟩ := Option.bind_eq_some_iff.mp h
      exact .member (keepReceiver_stays receiver hr)
  | .addressOf operand => fun h => by
      obtain ⟨_, ho, ⟨⟩⟩ := Option.bind_eq_some_iff.mp h
      exact .node nofun (keepExpr_stays operand ho)
  | .block block => by
      rintro ⟨⟩
      exact .node nofun (keepBlock_stays block)
termination_by structural x => x

theorem keepReceiver_stays : (receiver : Option Expr) → {receiver' : Option Expr} →
    keepReceiver dead receiver = some receiver' →
      Stays p (optionExprs true receiver) (optionExprs true receiver')
  | none => by
      rintro ⟨⟩
      exact .refl _
  | some receiver => fun h => by
      obtain ⟨_, hr, ⟨⟩⟩ := Option.bind_eq_some_iff.mp h
      exact keepExpr_stays receiver hr
termination_by structural x => x

theorem keepExprs_stays : (es : List Expr) → {es' : List Expr} → keepExprs dead es = some es' →
    Stays p (exprsExprs true es) (exprsExprs true es')
  | [] => by
      rintro ⟨⟩
      exact .refl _
  | e :: es => fun h => by
      obtain ⟨_, he, h⟩ := Option.bind_eq_some_iff.mp h
      obtain ⟨_, hs, ⟨⟩⟩ := Option.bind_eq_some_iff.mp h
      exact .append (keepExpr_stays e he) (keepExprs_stays es hs)
termination_by structural x => x

theorem keepOption_stays : (e : Option Expr) →
    Stays p (optionExprs true e) (optionExprs true (keepOption dead e))
  | none => Keeps.refl _
  | some e => by
      rw [keepOption]
      rcases h : keepExpr dead e with _ | e'
      · exact .dropped _
      · exact keepExpr_stays e h
termination_by structural x => x

theorem keepStmt_stays : (s : Stmt) → {s' : Stmt} → keepStmt dead s = some s' →
    Stays p (s.exprs true) (s'.exprs true)
  | ⟨form, source⟩ => fun h => keepStmtForm_stays source form h
termination_by structural x => x

theorem keepStmtForm_stays (source : Option SourceContext) : (form : StmtForm) → {s' : Stmt} →
    keepStmtForm dead source form = some s' → Stays p (form.exprs true) (s'.exprs true)
  | .goto _ | .snippet => by
      rintro ⟨⟩
      exact .refl _
  | .assignment target value => fun h => by
      obtain ⟨_, ht, h⟩ := Option.bind_eq_some_iff.mp h
      obtain ⟨_, hv, ⟨⟩⟩ := Option.bind_eq_some_iff.mp h
      exact .append (keepExpr_stays target ht) (keepExpr_stays value hv)
  | .attachEvent event handler => fun h => by
      obtain ⟨_, he, h⟩ := Option.bind_eq_some_iff.mp h
      obtain ⟨_, hh, ⟨⟩⟩ := Option.bind_eq_some_iff.mp h
      exact .append (keepExpr_stays event he) (keepExpr_stays handler hh)
  | .removeEvent event handler => fun h => by
      obtain ⟨_, he, h⟩ := Option.bind_eq_some_iff.mp h
      obtain ⟨_, hh, ⟨⟩⟩ := Option.bind_eq_some_iff.mp h
      exact .append (keepExpr_stays event he) (keepExpr_stays handler hh)
  | .branch condition whenTrue whenFalse => fun h => by
      obtain ⟨_, hc, ⟨⟩⟩ := Option.bind_eq_some_iff.mp h
      exact .append (.append (keepExpr_stays condition hc) (keepBlock_stays whenTrue))
        (keepBlock_stays whenFalse)
  | .expression expression => fun h => by
      obtain ⟨_, he, ⟨⟩⟩ := Option.bind_eq_some_iff.mp h
      exact keepExpr_stays expression he
  | .labeled _ statement => by
      rintro ⟨⟩
      exact keepLabeled_stays statement
  | .loop init test increment body => by
      rintro ⟨⟩
      exact .append (.append (.append (keepStmts_stays init) (keepOption_stays test))
        (keepStmts_stays increment)) (keepBlock_stays body)
  | .ret value => by
      rintro ⟨⟩
      exact keepOption_stays value
  | .raise value => by
      rintro ⟨⟩
      exact keepOption_stays value
  | .protect body catchers last => by
      rintro ⟨⟩
      exact .append (.append (keepBlock_stays body) (keepCatchers_stays catchers))
        (keepLast_stays last)
  | .declaration _ _ init => by
      rintro ⟨⟩
      exact .append (.refl _) (keepOption_stays init)
  | .block block => by
      rintro ⟨⟩
      exact keepBlock_stays block
termination_by structural x => x

theorem keepLabeled_stays : (s : Option Stmt) →
    Stays p (labeledExprs true s) (labeledExprs true (keepLabeled dead s))
  | none => Keeps.refl _
  | some s => by
      rw [keepLabeled]
      rcases h : keepStmt dead s with _ | s'
      · exact .dropped _
      · exact keepStmt_stays s h
termination_by structural x => x

theorem keepStmts_stays : (ss : List Stmt) →
    Stays p (stmtsExprs true ss) (stmtsExprs true (keepStmts dead ss))
  | [] => Keeps.refl _
  | s :: ss => by
      rw [keepStmts]
      rcases h : keepStmt dead s with _ | s'
      · exact .append (.dropped _) (keepStmts_stays ss)
      · exact .append (keepStmt_stays s h) (keepStmts_stays ss)
termination_by structural x => x

theorem keepCatchers_stays : (cs : List Catcher) →
    Stays p (catchersExprs true cs) (catchersExprs true (keepCatchers dead cs))
  | [] => Keeps.refl _
  | ⟨_, _, block⟩ :: cs =>
      .append (.append (.refl _) (keepBlock_stays block)) (keepCatchers_stays cs)
termination_by structural x => x

theorem keepLast_stays : (block : Option Block) →
    Stays p (lastExprs true block) (lastExprs true (keepLast dead block))
  | none => Keeps.refl _
  | some block => keepBlock_stays block
termination_by structural x => x

theorem keepBlock_stays : (block : Block) →
    Stays p (block.exprs true) ((keepBlock dead block).exprs true)
  | ⟨statements, _⟩ => keepStmts_stays statements
termination_by structural x => x

end

end

theorem pass_sound (layout : TypeId → Option TypeNode) : pass.Sound layout where
  editBody := by
    intro u body ref state hu hn
    have names : NamesOnly u.Has ((keepBlock (isDead u state.symbols) body.block).exprs true) :=
      (keepBlock_stays u.Has (isDead u state.symbols) body.block hn trivial).1
    rw [← editBody_block u ref body state] at names
    exact ⟨editBody_failure u ref body state hn, names⟩
  finishMethod := fun hs _ => .pure hs

end MiddleEnd.Conditional
