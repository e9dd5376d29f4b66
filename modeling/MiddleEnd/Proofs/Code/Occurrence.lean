/-
  Every expression that occurs in code, in the order of the code. Expressions inside types, that is
  in static types and in types that code mentions, are listed only on request.
-/
import MiddleEnd.Proofs.Code.Editing

namespace MiddleEnd

mutual

def TypeRef.exprs (types : Bool) : TypeRef → List Expr
  | .primitive _ => []
  | .named name => if types then name.exprs types else []
  | .array element _ => element.exprs types
  | .reference target => target.exprs types
  | .bound _ => []

/-- The expression itself, then those in its parts. -/
def Expr.exprs (types : Bool) : Expr → List Expr
  | ⟨form, type, source⟩ =>
    ⟨form, type, source⟩ :: (form.exprs types ++ typeExprs types type)

def ExprForm.exprs (types : Bool) : ExprForm → List Expr
  | .literal _ => []
  | .identifier _ => []
  | .qualified qualifier _ => qualifier.exprs types
  | .thisRef => []
  | .baseRef => []
  | .setterValue => []
  | .binary _ left right => left.exprs types ++ right.exprs types
  | .assignment statement => statement.exprs types
  | .cast operand target => operand.exprs types ++ target.exprs types
  | .indexer object operands => object.exprs types ++ exprsExprs types operands
  | .constructArray element size initializers =>
    element.exprs types ++ size.exprs types ++ exprsExprs types initializers
  | .construct constructed operands => constructed.exprs types ++ exprsExprs types operands
  | .constructDelegate delegate target _ => delegate.exprs types ++ target.exprs types
  | .call callee arguments => callee.exprs types ++ exprsExprs types arguments
  | .member receiver _ => optionExprs types receiver
  | .typeExpr type => type.exprs types
  | .typeOf type => type.exprs types
  | .addressOf operand => operand.exprs types
  | .snippet => []
  | .block block => block.exprs types
  | .temporary _ => []
  | .missing => []

def typeExprs (types : Bool) : Option TypeRef → List Expr
  | none => []
  | some type => type.exprs types

def optionExprs (types : Bool) : Option Expr → List Expr
  | none => []
  | some e => e.exprs types

def exprsExprs (types : Bool) : List Expr → List Expr
  | [] => []
  | e :: es => e.exprs types ++ exprsExprs types es

def Stmt.exprs (types : Bool) : Stmt → List Expr
  | ⟨form, _⟩ => form.exprs types

def StmtForm.exprs (types : Bool) : StmtForm → List Expr
  | .assignment target value => target.exprs types ++ value.exprs types
  | .attachEvent event handler => event.exprs types ++ handler.exprs types
  | .removeEvent event handler => event.exprs types ++ handler.exprs types
  | .branch condition whenTrue whenFalse =>
    condition.exprs types ++ whenTrue.exprs types ++ whenFalse.exprs types
  | .expression expression => expression.exprs types
  | .goto _ => []
  | .labeled _ statement => labeledExprs types statement
  | .loop init test increment body =>
    stmtsExprs types init ++ optionExprs types test ++ stmtsExprs types increment
      ++ body.exprs types
  | .ret value => optionExprs types value
  | .raise value => optionExprs types value
  | .protect body catchers last =>
    body.exprs types ++ catchersExprs types catchers ++ lastExprs types last
  | .declaration _ type init => type.exprs types ++ optionExprs types init
  | .snippet => []
  | .block block => block.exprs types

def labeledExprs (types : Bool) : Option Stmt → List Expr
  | none => []
  | some statement => statement.exprs types

def stmtsExprs (types : Bool) : List Stmt → List Expr
  | [] => []
  | s :: ss => s.exprs types ++ stmtsExprs types ss

def catchersExprs (types : Bool) : List Catcher → List Expr
  | [] => []
  | ⟨type, _, block⟩ :: cs => typeExprs types type ++ block.exprs types ++ catchersExprs types cs

def lastExprs (types : Bool) : Option Block → List Expr
  | none => []
  | some block => block.exprs types

def Block.exprs (types : Bool) : Block → List Expr
  | ⟨statements, _⟩ => stmtsExprs types statements

end

attribute [simp] Expr.exprs ExprForm.exprs typeExprs optionExprs exprsExprs Stmt.exprs
  StmtForm.exprs labeledExprs stmtsExprs catchersExprs lastExprs Block.exprs

@[simp]
theorem TypeRef.exprs_primitive (types : Bool) (primitive : PrimitiveType) :
    (TypeRef.primitive primitive).exprs types = [] := by rw [TypeRef.exprs]

@[simp]
theorem TypeRef.exprs_bound (types : Bool) (id : TypeId) : (TypeRef.bound id).exprs types = [] := by
  rw [TypeRef.exprs]

/-- Static types and mentioned types hold nothing unless they are asked for. -/
@[simp]
theorem TypeRef.exprs_false : (type : TypeRef) → type.exprs false = []
  | .primitive _ => by rw [TypeRef.exprs]
  | .named _ => by rw [TypeRef.exprs]; rfl
  | .array element _ => by rw [TypeRef.exprs, element.exprs_false]
  | .reference target => by rw [TypeRef.exprs, target.exprs_false]
  | .bound _ => by rw [TypeRef.exprs]

@[simp]
theorem typeExprs_false (type : Option TypeRef) : typeExprs false type = [] := by
  cases type with
  | none => rw [typeExprs]
  | some type => rw [typeExprs, type.exprs_false]

/-- Outside types, an expression without parts holds no other. -/
theorem ExprForm.exprs_leaf {form : ExprForm} (h : form.isLeaf = true) : form.exprs false = [] := by
  cases form <;> simp_all [isLeaf]

/-! ## Parts of a listing -/

theorem filterMap_cons_toList {α β : Type} (f : α → Option β) (x : α) (xs : List α) :
    (x :: xs).filterMap f = (f x).toList ++ xs.filterMap f := by
  rw [List.filterMap_cons]
  cases f x <;> rfl

/-! ## Members -/

/-- Every member that one of the expressions names has the property. -/
def NamesOnly (p : MemberRef → Prop) (es : List Expr) : Prop :=
  ∀ e ∈ es, ∀ receiver ref, e.form = .member receiver ref → p ref

theorem NamesOnly.mono {p q : MemberRef → Prop} {es : List Expr} (h : NamesOnly p es)
    (hpq : ∀ ref, p ref → q ref) : NamesOnly q es :=
  fun e he receiver ref hm => hpq ref (h e he receiver ref hm)

@[simp]
theorem namesOnly_nil {p : MemberRef → Prop} : NamesOnly p [] := by simp [NamesOnly]

@[simp]
theorem namesOnly_append {p : MemberRef → Prop} {es fs : List Expr} :
    NamesOnly p (es ++ fs) ↔ NamesOnly p es ∧ NamesOnly p fs :=
  List.forall_mem_append

@[simp]
theorem namesOnly_cons {p : MemberRef → Prop} {e : Expr} {es : List Expr} :
    NamesOnly p (e :: es) ↔
      (∀ receiver ref, e.form = .member receiver ref → p ref) ∧ NamesOnly p es :=
  List.forall_mem_cons

/-- An expression names what it is a member for, what its parts name and what its type names. -/
theorem namesOnly_expr {p : MemberRef → Prop} {form : ExprForm} {type : Option TypeRef}
    {source : Option SourceContext} :
    NamesOnly p (Expr.exprs true ⟨form, type, source⟩) ↔
      (∀ receiver ref, form = .member receiver ref → p ref) ∧ NamesOnly p (form.exprs true) ∧
        NamesOnly p (typeExprs true type) := by
  rw [Expr.exprs, namesOnly_cons, namesOnly_append]

theorem namesOnly_member {p : MemberRef → Prop} {receiver : Option Expr} {ref : MemberRef}
    {type : Option TypeRef} {source : Option SourceContext} :
    NamesOnly p (Expr.exprs true ⟨.member receiver ref, type, source⟩) ↔
      p ref ∧ NamesOnly p (optionExprs true receiver) ∧ NamesOnly p (typeExprs true type) := by
  rw [namesOnly_expr, ExprForm.exprs]
  constructor
  · rintro ⟨hm, hparts⟩
    exact ⟨hm receiver ref rfl, hparts⟩
  · rintro ⟨href, hparts⟩
    refine ⟨?_, hparts⟩
    rintro _ _ ⟨⟩
    exact href

/-- None of the expressions names a member. -/
abbrev MemberFree (es : List Expr) : Prop := NamesOnly (fun _ => False) es

/-! ## Temporaries -/

/-- The temporary that an expression is. -/
def Expr.temporary? (e : Expr) : Option LocalId :=
  match e.form with
  | .temporary id => some id
  | _ => none

/-- The temporary that a statement assigns to. -/
def Stmt.assigned? (s : Stmt) : Option LocalId :=
  match s.form with
  | .assignment target _ => target.temporary?
  | _ => none

/-- None of the expressions is a temporary. -/
def NoTemporaries (es : List Expr) : Prop := ∀ e ∈ es, e.temporary? = none

instance (es : List Expr) : Decidable (NoTemporaries es) :=
  inferInstanceAs (Decidable (∀ e ∈ es, e.temporary? = none))

@[simp]
theorem noTemporaries_append {es fs : List Expr} :
    NoTemporaries (es ++ fs) ↔ NoTemporaries es ∧ NoTemporaries fs :=
  List.forall_mem_append

@[simp]
theorem noTemporaries_cons {e : Expr} {es : List Expr} :
    NoTemporaries (e :: es) ↔ e.temporary? = none ∧ NoTemporaries es :=
  List.forall_mem_cons

/-- Outside types, no temporary occurs in the block. -/
def Block.NoTemporaries (b : Block) : Prop := MiddleEnd.NoTemporaries (b.exprs false)

instance (b : Block) : Decidable b.NoTemporaries :=
  inferInstanceAs (Decidable (MiddleEnd.NoTemporaries (b.exprs false)))

end MiddleEnd
