/-
  What a visitor keeps of its state. A walk over code keeps an invariant if every override does,
  given that what it walks on with does; overrides that see a member may rely on a property that all
  members of the code have (`Respects.visitBlock`).

  What a visitor lists. If the overrides for members and calls put something behind a list before
  they walk on, and the others only walk on, then a walk puts there what belongs to the expressions
  of the code, in their order (`Lists.visitBlock`).
-/
import MiddleEnd.Code.Visitor
import MiddleEnd.Proofs.Code.Occurrence

namespace MiddleEnd

namespace Visitor

variable {σ : Type}

theorem walkExpr_leaf (visitor : Visitor σ) {form : ExprForm} (h : form.isLeaf = true) :
    visitor.walkExpr form = pure () := by
  cases form
  case literal | identifier | thisRef | baseRef | setterValue | typeExpr | typeOf | snippet
    | temporary | missing => rfl
  all_goals cases h

/-- The action takes states of the invariant to such states. -/
def Preserves (inv : σ → Prop) (action : StateM σ Unit) : Prop := ∀ s, inv s → inv (action s).2

theorem Preserves.pure (inv : σ → Prop) : Preserves inv (Pure.pure ()) := fun _ h => h

theorem Preserves.seq {inv : σ → Prop} {first second : StateM σ Unit} (hf : Preserves inv first)
    (hs : Preserves inv second) : Preserves inv (first >>= fun _ => second) :=
  fun s h => hs _ (hf s h)

/-- The overrides keep the invariant, for members with the property. -/
structure Respects (visitor : Visitor σ) (p : MemberRef → Prop) (inv : σ → Prop) : Prop where
  block : ∀ {b walk}, Preserves inv walk → Preserves inv (visitor.block b walk)
  stmt : ∀ {s walk}, Preserves inv walk → Preserves inv (visitor.stmt s walk)
  expr : ∀ {e walk}, Preserves inv walk → Preserves inv (visitor.expr e walk)
  member : ∀ {receiver ref walk}, p ref → Preserves inv walk →
    Preserves inv (visitor.member receiver ref walk)
  call : ∀ {callee arguments walk}, (∀ receiver ref, callee.form = .member receiver ref → p ref) →
    Preserves inv walk → Preserves inv (visitor.call callee arguments walk)

namespace Respects

variable {visitor : Visitor σ} {p : MemberRef → Prop} {inv : σ → Prop}

mutual

theorem visitExpr (h : visitor.Respects p inv) : (e : Expr) →
    NamesOnly p (e.exprs true) → Preserves inv (visitor.visitExpr e)
  | ⟨form, type, source⟩ => fun hn => by
      obtain ⟨hm, hform, -⟩ := namesOnly_expr.mp hn
      exact h.expr (walkExpr h form hm hform)

theorem walkExpr (h : visitor.Respects p inv) : (form : ExprForm) →
    (∀ receiver ref, form = .member receiver ref → p ref) →
    NamesOnly p (form.exprs true) → Preserves inv (visitor.walkExpr form)
  | .member receiver ref => fun hm hn => h.member (hm receiver ref rfl) (visitOption h receiver hn)
  | .call callee arguments => fun _ hn => by
      obtain ⟨hc, ha⟩ := namesOnly_append.mp hn
      refine h.call ?_ (.seq (visitExpr h callee hc) (visitExprs h arguments ha))
      obtain ⟨form, type, source⟩ := callee
      exact (namesOnly_expr.mp hc).1
  | .qualified qualifier _ => fun _ hn => visitExpr h qualifier hn
  | .binary _ left right => fun _ hn => by
      obtain ⟨hl, hr⟩ := namesOnly_append.mp hn
      exact .seq (visitExpr h left hl) (visitExpr h right hr)
  | .assignment statement => fun _ hn => visitStmt h statement hn
  | .cast operand _ => fun _ hn => visitExpr h operand (namesOnly_append.mp hn).1
  | .indexer object operands => fun _ hn => by
      obtain ⟨ho, hs⟩ := namesOnly_append.mp hn
      exact .seq (visitExpr h object ho) (visitExprs h operands hs)
  | .constructArray _ size initializers => fun _ hn => by
      obtain ⟨hs, hi⟩ := namesOnly_append.mp hn
      exact .seq (visitExpr h size (namesOnly_append.mp hs).2) (visitExprs h initializers hi)
  | .construct _ operands => fun _ hn => visitExprs h operands (namesOnly_append.mp hn).2
  | .constructDelegate _ target _ => fun _ hn => visitExpr h target (namesOnly_append.mp hn).2
  | .addressOf operand => fun _ hn => visitExpr h operand hn
  | .block block => fun _ hn => visitBlock h block hn
  | .literal _ | .identifier _ | .thisRef | .baseRef | .setterValue | .typeExpr _ | .typeOf _
  | .snippet | .temporary _ | .missing => fun _ _ => .pure inv

theorem visitExprs (h : visitor.Respects p inv) : (es : List Expr) →
    NamesOnly p (exprsExprs true es) → Preserves inv (visitor.visitExprs es)
  | [] => fun _ => .pure inv
  | e :: es => fun hn => by
      obtain ⟨he, hs⟩ := namesOnly_append.mp hn
      exact .seq (visitExpr h e he) (visitExprs h es hs)

theorem visitOption (h : visitor.Respects p inv) : (e : Option Expr) →
    NamesOnly p (optionExprs true e) → Preserves inv (visitor.visitOption e)
  | none => fun _ => .pure inv
  | some e => fun hn => visitExpr h e hn

theorem visitStmt (h : visitor.Respects p inv) : (s : Stmt) →
    NamesOnly p (s.exprs true) → Preserves inv (visitor.visitStmt s)
  | ⟨form, _⟩ => fun hn => h.stmt (walkStmt h form hn)

theorem walkStmt (h : visitor.Respects p inv) : (form : StmtForm) → NamesOnly p (form.exprs true) →
    Preserves inv (visitor.walkStmt form)
  | .assignment target value => fun hn => by
      obtain ⟨ht, hv⟩ := namesOnly_append.mp hn
      exact .seq (visitExpr h target ht) (visitExpr h value hv)
  | .attachEvent event handler => fun hn => by
      obtain ⟨he, hh⟩ := namesOnly_append.mp hn
      exact .seq (visitExpr h event he) (visitExpr h handler hh)
  | .removeEvent event handler => fun hn => by
      obtain ⟨he, hh⟩ := namesOnly_append.mp hn
      exact .seq (visitExpr h event he) (visitExpr h handler hh)
  | .branch condition whenTrue whenFalse => fun hn => by
      obtain ⟨hn, hf⟩ := namesOnly_append.mp hn
      obtain ⟨hc, ht⟩ := namesOnly_append.mp hn
      exact .seq (visitExpr h condition hc)
        (.seq (visitBlock h whenTrue ht) (visitBlock h whenFalse hf))
  | .expression expression => fun hn => visitExpr h expression hn
  | .labeled _ statement => fun hn => visitLabeled h statement hn
  | .loop init test increment body => fun hn => by
      obtain ⟨hn, hb⟩ := namesOnly_append.mp hn
      obtain ⟨hn, hi⟩ := namesOnly_append.mp hn
      obtain ⟨hs, ht⟩ := namesOnly_append.mp hn
      exact .seq (visitStmts h init hs) (.seq (visitOption h test ht)
        (.seq (visitStmts h increment hi) (visitBlock h body hb)))
  | .ret value => fun hn => visitOption h value hn
  | .raise value => fun hn => visitOption h value hn
  | .protect body catchers last => fun hn => by
      obtain ⟨hn, hl⟩ := namesOnly_append.mp hn
      obtain ⟨hb, hc⟩ := namesOnly_append.mp hn
      exact .seq (visitBlock h body hb) (.seq (visitCatchers h catchers hc) (visitLast h last hl))
  | .declaration _ _ init => fun hn => visitOption h init (namesOnly_append.mp hn).2
  | .block block => fun hn => visitBlock h block hn
  | .goto _ | .snippet => fun _ => .pure inv

theorem visitStmts (h : visitor.Respects p inv) : (ss : List Stmt) →
    NamesOnly p (stmtsExprs true ss) → Preserves inv (visitor.visitStmts ss)
  | [] => fun _ => .pure inv
  | s :: ss => fun hn => by
      obtain ⟨hs, hss⟩ := namesOnly_append.mp hn
      exact .seq (visitStmt h s hs) (visitStmts h ss hss)

theorem visitLabeled (h : visitor.Respects p inv) : (s : Option Stmt) →
    NamesOnly p (labeledExprs true s) → Preserves inv (visitor.visitLabeled s)
  | none => fun _ => .pure inv
  | some s => fun hn => visitStmt h s hn

theorem visitCatchers (h : visitor.Respects p inv) : (cs : List Catcher) →
    NamesOnly p (catchersExprs true cs) → Preserves inv (visitor.visitCatchers cs)
  | [] => fun _ => .pure inv
  | ⟨_, _, block⟩ :: cs => fun hn => by
      obtain ⟨hb, hs⟩ := namesOnly_append.mp hn
      exact .seq (visitBlock h block (namesOnly_append.mp hb).2) (visitCatchers h cs hs)

theorem visitLast (h : visitor.Respects p inv) : (block : Option Block) →
    NamesOnly p (lastExprs true block) → Preserves inv (visitor.visitLast block)
  | none => fun _ => .pure inv
  | some block => fun hn => visitBlock h block hn

theorem visitBlock (h : visitor.Respects p inv) : (b : Block) → NamesOnly p (b.exprs true) →
    Preserves inv (visitor.visitBlock b)
  | ⟨statements, _⟩ => fun hn => h.block (visitStmts h statements hn)

end

end Respects

end Visitor

/-! ## Listing -/

section

variable {β : Type} (member : Option Expr → MemberRef → List β)
  (call : Expr → List Expr → List β)

/-- What belongs to an expression, if only members and calls have something. -/
def ExprForm.noted : ExprForm → List β
  | .member receiver ref => member receiver ref
  | .call callee arguments => call callee arguments
  | _ => []

/-- What belongs to the expressions, one behind the other. -/
def listing (es : List Expr) : List β := es.flatMap fun e => e.form.noted member call

@[simp]
theorem listing_nil : listing member call [] = [] := rfl

@[simp]
theorem listing_append (es fs : List Expr) :
    listing member call (es ++ fs) = listing member call es ++ listing member call fs :=
  List.flatMap_append

theorem listing_expr (form : ExprForm) (type : Option TypeRef) (source : Option SourceContext) :
    listing member call (Expr.exprs false ⟨form, type, source⟩) =
      form.noted member call ++ listing member call (form.exprs false) := by
  rw [Expr.exprs, typeExprs_false, List.append_nil]
  rfl

end

namespace Visitor

variable {σ β : Type}

/-- The action puts the entries behind those of the state. -/
def Appends (view : σ → List β) (added : List β) (action : StateM σ Unit) : Prop :=
  ∀ s, view (action s).2 = view s ++ added

theorem Appends.pure (view : σ → List β) : Appends view [] (Pure.pure ()) :=
  fun s => (List.append_nil (view s)).symm

theorem Appends.seq {view : σ → List β} {added added' : List β} {first second : StateM σ Unit}
    (hf : Appends view added first) (hs : Appends view added' second) :
    Appends view (added ++ added') (first >>= fun _ => second) := by
  intro s
  show view (second (first s).2).2 = _
  rw [hs, hf, List.append_assoc]

/-- The overrides put what belongs to members and calls behind the list, given that the expressions
    they see have the property `ok`, and go on. -/
structure Lists (visitor : Visitor σ) (view : σ → List β) (ok : Expr → Prop)
    (member : Option Expr → MemberRef → List β) (call : Expr → List Expr → List β) : Prop where
  block : ∀ {b walk added}, Appends view added walk → Appends view added (visitor.block b walk)
  stmt : ∀ {s walk added}, Appends view added walk → Appends view added (visitor.stmt s walk)
  expr : ∀ {e walk added}, Appends view added walk → Appends view added (visitor.expr e walk)
  member : ∀ {receiver ref walk added}, (∀ e ∈ optionExprs false receiver, ok e) →
    Appends view added walk →
    Appends view (member receiver ref ++ added) (visitor.member receiver ref walk)
  call : ∀ {callee arguments walk added}, Appends view added walk →
    Appends view (call callee arguments ++ added) (visitor.call callee arguments walk)

namespace Lists

variable {visitor : Visitor σ} {view : σ → List β} {ok : Expr → Prop}
  {member : Option Expr → MemberRef → List β} {call : Expr → List Expr → List β}

mutual

theorem visitExpr (h : visitor.Lists view ok member call) : (e : Expr) →
    (∀ x ∈ e.exprs false, ok x) →
    Appends view (listing member call (e.exprs false)) (visitor.visitExpr e)
  | ⟨form, type, source⟩ => fun hok => by
      rw [listing_expr]
      refine h.expr (walkExpr h form fun x hx => hok x ?_)
      rw [Expr.exprs]
      exact List.mem_cons_of_mem _ (List.mem_append_left _ hx)

theorem walkExpr (h : visitor.Lists view ok member call) : (form : ExprForm) →
    (∀ x ∈ form.exprs false, ok x) →
    Appends view (form.noted member call ++ listing member call (form.exprs false))
      (visitor.walkExpr form)
  | .member receiver ref => fun hok => h.member hok (visitOption h receiver hok)
  | .call callee arguments => fun hok => by
      obtain ⟨hc, ha⟩ := List.forall_mem_append.mp hok
      rw [ExprForm.exprs, listing_append]
      exact h.call (.seq (visitExpr h callee hc) (visitExprs h arguments ha))
  | .qualified qualifier _ => fun hok => visitExpr h qualifier hok
  | .binary _ left right => fun hok => by
      obtain ⟨hl, hr⟩ := List.forall_mem_append.mp hok
      have hparts := Appends.seq (visitExpr h left hl) (visitExpr h right hr)
      rwa [← listing_append] at hparts
  | .assignment statement => fun hok => visitStmt h statement hok
  | .cast operand target => fun hok => by
      rw [ExprForm.exprs, TypeRef.exprs_false, List.append_nil] at hok ⊢
      exact visitExpr h operand hok
  | .indexer object operands => fun hok => by
      obtain ⟨ho, hs⟩ := List.forall_mem_append.mp hok
      have hparts := Appends.seq (visitExpr h object ho) (visitExprs h operands hs)
      rwa [← listing_append] at hparts
  | .constructArray element size initializers => fun hok => by
      rw [ExprForm.exprs, TypeRef.exprs_false, List.nil_append] at hok ⊢
      obtain ⟨hs, hi⟩ := List.forall_mem_append.mp hok
      have hparts := Appends.seq (visitExpr h size hs) (visitExprs h initializers hi)
      rwa [← listing_append] at hparts
  | .construct constructed operands => fun hok => by
      rw [ExprForm.exprs, TypeRef.exprs_false, List.nil_append] at hok ⊢
      exact visitExprs h operands hok
  | .constructDelegate delegate target _ => fun hok => by
      rw [ExprForm.exprs, TypeRef.exprs_false, List.nil_append] at hok ⊢
      exact visitExpr h target hok
  | .addressOf operand => fun hok => visitExpr h operand hok
  | .block block => fun hok => visitBlock h block hok
  | .typeExpr type | .typeOf type => fun _ => by
      rw [ExprForm.exprs, TypeRef.exprs_false]
      exact .pure view
  | .literal _ | .identifier _ | .thisRef | .baseRef | .setterValue | .snippet | .temporary _
  | .missing => fun _ => .pure view

theorem visitExprs (h : visitor.Lists view ok member call) : (es : List Expr) →
    (∀ x ∈ exprsExprs false es, ok x) →
    Appends view (listing member call (exprsExprs false es)) (visitor.visitExprs es)
  | [] => fun _ => .pure view
  | e :: es => fun hok => by
      obtain ⟨he, hs⟩ := List.forall_mem_append.mp hok
      rw [exprsExprs, listing_append]
      exact .seq (visitExpr h e he) (visitExprs h es hs)

theorem visitOption (h : visitor.Lists view ok member call) : (e : Option Expr) →
    (∀ x ∈ optionExprs false e, ok x) →
    Appends view (listing member call (optionExprs false e)) (visitor.visitOption e)
  | none => fun _ => .pure view
  | some e => fun hok => visitExpr h e hok

theorem visitStmt (h : visitor.Lists view ok member call) : (s : Stmt) →
    (∀ x ∈ s.exprs false, ok x) →
    Appends view (listing member call (s.exprs false)) (visitor.visitStmt s)
  | ⟨form, _⟩ => fun hok => h.stmt (walkStmt h form hok)

theorem walkStmt (h : visitor.Lists view ok member call) : (form : StmtForm) →
    (∀ x ∈ form.exprs false, ok x) →
    Appends view (listing member call (form.exprs false)) (visitor.walkStmt form)
  | .assignment target value => fun hok => by
      obtain ⟨ht, hv⟩ := List.forall_mem_append.mp hok
      rw [StmtForm.exprs, listing_append]
      exact .seq (visitExpr h target ht) (visitExpr h value hv)
  | .attachEvent event handler => fun hok => by
      obtain ⟨he, hh⟩ := List.forall_mem_append.mp hok
      rw [StmtForm.exprs, listing_append]
      exact .seq (visitExpr h event he) (visitExpr h handler hh)
  | .removeEvent event handler => fun hok => by
      obtain ⟨he, hh⟩ := List.forall_mem_append.mp hok
      rw [StmtForm.exprs, listing_append]
      exact .seq (visitExpr h event he) (visitExpr h handler hh)
  | .branch condition whenTrue whenFalse => fun hok => by
      obtain ⟨hok, hf⟩ := List.forall_mem_append.mp hok
      obtain ⟨hc, ht⟩ := List.forall_mem_append.mp hok
      rw [StmtForm.exprs, List.append_assoc, listing_append, listing_append]
      exact .seq (visitExpr h condition hc)
        (.seq (visitBlock h whenTrue ht) (visitBlock h whenFalse hf))
  | .expression expression => fun hok => visitExpr h expression hok
  | .labeled _ statement => fun hok => visitLabeled h statement hok
  | .loop init test increment body => fun hok => by
      obtain ⟨hok, hb⟩ := List.forall_mem_append.mp hok
      obtain ⟨hok, hi⟩ := List.forall_mem_append.mp hok
      obtain ⟨hs, ht⟩ := List.forall_mem_append.mp hok
      rw [StmtForm.exprs, List.append_assoc, List.append_assoc, listing_append, listing_append,
        listing_append]
      exact .seq (visitStmts h init hs) (.seq (visitOption h test ht)
        (.seq (visitStmts h increment hi) (visitBlock h body hb)))
  | .ret value => fun hok => visitOption h value hok
  | .raise value => fun hok => visitOption h value hok
  | .protect body catchers last => fun hok => by
      obtain ⟨hok, hl⟩ := List.forall_mem_append.mp hok
      obtain ⟨hb, hc⟩ := List.forall_mem_append.mp hok
      rw [StmtForm.exprs, List.append_assoc, listing_append, listing_append]
      exact .seq (visitBlock h body hb) (.seq (visitCatchers h catchers hc) (visitLast h last hl))
  | .declaration _ type init => fun hok => by
      rw [StmtForm.exprs, TypeRef.exprs_false, List.nil_append] at hok ⊢
      exact visitOption h init hok
  | .block block => fun hok => visitBlock h block hok
  | .goto _ | .snippet => fun _ => .pure view

theorem visitStmts (h : visitor.Lists view ok member call) : (ss : List Stmt) →
    (∀ x ∈ stmtsExprs false ss, ok x) →
    Appends view (listing member call (stmtsExprs false ss)) (visitor.visitStmts ss)
  | [] => fun _ => .pure view
  | s :: ss => fun hok => by
      obtain ⟨hs, hss⟩ := List.forall_mem_append.mp hok
      rw [stmtsExprs, listing_append]
      exact .seq (visitStmt h s hs) (visitStmts h ss hss)

theorem visitLabeled (h : visitor.Lists view ok member call) : (s : Option Stmt) →
    (∀ x ∈ labeledExprs false s, ok x) →
    Appends view (listing member call (labeledExprs false s)) (visitor.visitLabeled s)
  | none => fun _ => .pure view
  | some s => fun hok => visitStmt h s hok

theorem visitCatchers (h : visitor.Lists view ok member call) : (cs : List Catcher) →
    (∀ x ∈ catchersExprs false cs, ok x) →
    Appends view (listing member call (catchersExprs false cs)) (visitor.visitCatchers cs)
  | [] => fun _ => .pure view
  | ⟨type, _, block⟩ :: cs => fun hok => by
      rw [catchersExprs, typeExprs_false, List.nil_append] at hok ⊢
      obtain ⟨hb, hs⟩ := List.forall_mem_append.mp hok
      rw [listing_append]
      exact .seq (visitBlock h block hb) (visitCatchers h cs hs)

theorem visitLast (h : visitor.Lists view ok member call) : (block : Option Block) →
    (∀ x ∈ lastExprs false block, ok x) →
    Appends view (listing member call (lastExprs false block)) (visitor.visitLast block)
  | none => fun _ => .pure view
  | some block => fun hok => visitBlock h block hok

theorem visitBlock (h : visitor.Lists view ok member call) : (b : Block) →
    (∀ x ∈ b.exprs false, ok x) →
    Appends view (listing member call (b.exprs false)) (visitor.visitBlock b)
  | ⟨statements, _⟩ => fun hok => h.block (visitStmts h statements hok)

end

end Lists

end Visitor

end MiddleEnd
