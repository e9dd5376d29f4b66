/-
  Reading of written code trees. Each reader takes the written form of a node without
  floating-point constants for the rereading of the node (`Decode.Reads`), down to the depth that is
  left. Closed records are read field by field. A node of an open set is taken in whole, and then
  its known shape finds every field it asks for; a node of unknown shape has nothing but its kind,
  so the first required field is missing, if there is one.
-/
import MiddleEnd.Proofs.CodeTree.Nested
import MiddleEnd.Proofs.CodeTree.Rereading
import MiddleEnd.Proofs.CodeTree.Writing
import MiddleEnd.Proofs.Json.Decoding

namespace MiddleEnd.CodeTree.Reader

open Decode Recasting

/-! ## Sources, types and constants -/

theorem reads_linePragma (p : LinePragma) : Reads linePragma p.toJson p :=
  Reads.record (fun _ _ => rfl) (fun _ _ => rfl) rfl fun depth =>
    .cons ((reads_string p.fileName).map _ depth) <|
    .cons ((reads_uint32 p.lineNumber).map _ depth) .nil

theorem reads_linePragmaOption (p : Option LinePragma) :
    Reads (fun depth => optional (linePragma depth)) (Json.option LinePragma.toJson p) p := by
  have h := reads_option (f := id) nofun p fun p _ => reads_linePragma p
  rwa [Option.map_id] at h

theorem reads_stringOption (text : Option String) :
    Reads (fun _ => optional string) (Json.option .string text) text := by
  have h := reads_option (f := id) nofun text fun text _ => reads_string text
  rwa [Option.map_id] at h

theorem reads_document (d : Document) : Reads document (documentToJson d) d :=
  Reads.record (fun _ _ => rfl) (fun _ _ => rfl) rfl fun depth =>
    .cons ((reads_stringOption d.name).map _ depth) <|
    .cons ((reads_uint32 d.startLine).map _ depth) <|
    .cons ((reads_string d.text).map _ depth) .nil

theorem reads_source (s : SourceContext) : Reads sourceContext (sourceToJson s) s :=
  Reads.record (fun _ _ => rfl) (fun _ _ => rfl) rfl fun depth =>
    .cons ((reads_document s.document).map _ depth) <|
    .cons ((reads_uint64 s.offset).map _ depth) <|
    .cons ((reads_uint64 s.length).map _ depth) .nil

theorem reads_someSource (s : SourceContext) :
    Reads (fun depth => optional (sourceContext depth)) (sourceToJson s) (some s) :=
  (reads_source s).some (by simp [sourceToJson])

mutual

theorem reads_type : (t : TypeReference) → Reads typeReference t.toJson t
  | ⟨base, element, rank⟩ =>
      Reads.record (fun _ _ => rfl) (fun _ _ => rfl) rfl fun depth =>
        .cons ((reads_string base).map _ depth) <|
        .cons ((reads_element element).map _ depth) <|
        .cons ((reads_uint32 rank).map _ depth) .nil

theorem reads_element : (element : Option TypeReference) →
    Reads (fun depth => optional (typeReference depth)) (elementToJson element) element
  | none => reads_none
  | some t => (reads_type t).some (by cases t; nofun)

end

theorem reads_typeOption (t : Option TypeReference) :
    Reads (fun depth => optional (typeReference depth)) (Json.option TypeReference.toJson t) t := by
  cases t with
  | none => exact reads_element none
  | some t => exact reads_element (some t)

theorem reads_types (ts : List TypeReference) : Reads typeReferences (typesToJson ts) ts := by
  have h := Reads.list (f := id) ts fun t _ => reads_type t
  rwa [List.map_id] at h

theorem reads_strings (texts : List String) :
    Reads (list fun _ => string) (Json.strings texts) texts := by
  have h := Reads.list (f := id) texts fun text _ => reads_string text
  rwa [List.map_id] at h

theorem reads_direction (d : Direction) : Reads (fun _ => named directionOf) (.string d.tag) d := by
  intro depth
  cases d <;> exact (within_zero depth _).symm

theorem reads_operator (op : BinaryOperator) :
    Reads (fun _ => named operatorOf) (.string op.tag) op := by
  intro depth
  cases op <;> exact (within_zero depth _).symm

theorem reads_decimal (v : Decimal) : Reads decimal (decimalToJson v) v :=
  Reads.record (fun _ _ => rfl) (fun _ _ => rfl) rfl fun depth =>
    .cons ((reads_int64 v.mantissa).map _ depth) <|
    .cons ((reads_uint8 v.scale).map _ depth) .nil

/-- The object around a constant takes a level, but reading the constant does not ask for it. -/
theorem primitive_ok (value : Primitive) (h : value.isFloat = false) {depth : Nat}
    (hd : value.toJson.height ≤ depth) : primitive depth value.toJson.draft = .ok value := by
  cases value with
  | null | dbNull => rfl
  | boolean v => rfl
  | string v => rfl
  | char v => exact map_ok ((reads_char v).ok (Nat.zero_le 0)) _
  | sbyte v => exact map_ok ((reads_int8 v).ok (Nat.zero_le 0)) _
  | byte v => exact map_ok ((reads_uint8 v).ok (Nat.zero_le 0)) _
  | int16 v => exact map_ok ((reads_int16 v).ok (Nat.zero_le 0)) _
  | uint16 v => exact map_ok ((reads_uint16 v).ok (Nat.zero_le 0)) _
  | int32 v => exact map_ok ((reads_int32 v).ok (Nat.zero_le 0)) _
  | uint32 v => exact map_ok ((reads_uint32 v).ok (Nat.zero_le 0)) _
  | int64 v => exact map_ok ((reads_int64 v).ok (Nat.zero_le 0)) _
  | uint64 v => exact map_ok ((reads_uint64 v).ok (Nat.zero_le 0)) _
  | dateTime v => exact map_ok ((reads_int64 v).ok (Nat.zero_le 0)) _
  | decimal v =>
      have hcontent : (decimalToJson v).height ≤ depth - 1 := Nat.le_sub_one_of_lt hd
      exact map_ok ((reads_decimal v).ok hcontent) _
  | single v => cases h
  | double v => cases h

/-! ## Nodes of open sets -/

section

variable {α : Type} {other : String → α} {form : α} {kind : String} {fields : List (String × Json)}

/-- One field of a node, while its source is looked for. -/
def sourceStep (depth : Nat) (source : Option SourceContext) (key : String) (d : Draft) :
    Decoded (Option SourceContext) :=
  if key = "source" then optional (sourceContext depth) d
  else do
    whole depth d
    return source

/-- The fields of a node without its source lead to no source. -/
theorem gathers_payload (depth : Nat) (hfields : ∀ f ∈ fields, f.1 ≠ "source") :
    Gathers (sourceStep depth) depth none fields none := by
  induction fields with
  | nil => exact .nil
  | cons f fields ih =>
      obtain ⟨hf, hfields⟩ := List.forall_mem_cons.1 hfields
      refine .cons ?_ (ih hfields)
      rw [sourceStep, if_neg hf, whole_draft]
      exact within_then rfl

theorem gathers_source (depth : Nat) (source : Option SourceContext) :
    Gathers (sourceStep depth) depth none (sourceField source) source := by
  cases source with
  | none => exact .nil
  | some s => exact .cons (reads_someSource s depth) .nil

/-- What a node is taken for: its known shape, or else one of unknown shape. -/
def shape (other : String → α) (kind : String) : Decoded α → α
  | .ok form => form
  | .error _ => other kind

/-- All fields of a node: its kind, those of its shape, its source. -/
def nodeFields (kind : String) (fields : List (String × Json)) (source : Option SourceContext) :
    List (String × Json) := ("kind", .string kind) :: fields ++ sourceField source

theorem shape_ok {r : Decoded α} (h : r = .ok form) : shape other kind r = form := by
  rw [h]
  rfl

theorem openNode_node {known : String → Fields → Decoded α}
    (hfields : ∀ f ∈ fields, f.1 ≠ "source") (source : Option SourceContext) (depth : Nat)
    (h : Json.fieldsHeight (nodeFields kind fields source) ≤ depth →
      shape other kind (known kind (Json.fieldDrafts (nodeFields kind fields source))) = form) :
    openNode depth known other (.object (Json.fieldDrafts (nodeFields kind fields source)) none) =
      within (Json.fieldsHeight (nodeFields kind fields source)) depth (form, source) := by
  have hpayload : Gathers (sourceStep depth) depth none (("kind", .string kind) :: fields) none :=
    gathers_payload depth (List.forall_mem_cons.2 ⟨by simp, hfields⟩)
  have hfold :
      foldFields (sourceStep depth) none (Json.fieldDrafts (nodeFields kind fields source)) =
      within (Json.fieldsHeight (nodeFields kind fields source)) depth source :=
    (hpayload.append (gathers_source depth source)).foldFields
  show (foldFields (sourceStep depth) none
    (Json.fieldDrafts (nodeFields kind fields source)) >>= _) = _
  rw [hfold]
  -- the shape is looked at only where the node fits into the depth
  unfold within
  split
  case isTrue hd =>
    rw [← h hd]
    show (match known kind _ with
      | .ok form => (return (form, source) : Decoded (α × Option SourceContext))
      | .error _ => return (other kind, source)) = _
    cases known kind _ <;> rfl
  case isFalse => rfl

theorem reads_node {β : Type} {decode : Nat → Draft → Decoded β}
    {known : Nat → String → Fields → Decoded α} {node : α → Option SourceContext → β}
    (hzero : ∀ fs stop, decode 0 (.object fs stop) = .error .malformed)
    (hsucc : ∀ depth d, decode (depth + 1) d =
      (do let (form, source) ← openNode depth (known depth) other d
          return node form source))
    (hfields : ∀ f ∈ fields, f.1 ≠ "source") (source : Option SourceContext)
    (h : ∀ depth, Json.fieldsHeight (nodeFields kind fields source) ≤ depth →
      shape other kind (known depth kind (Json.fieldDrafts (nodeFields kind fields source))) =
        form) :
    Reads decode (nodeToJson kind fields source) (node form source) := by
  intro depth
  cases depth with
  | zero => exact (hzero _ _).trans (within_succ_zero _ _).symm
  | succ depth =>
      have hnode := openNode_node hfields source depth (h depth)
      show decode (depth + 1) (.object (Json.fieldDrafts (nodeFields kind fields source)) none) =
        within (Json.fieldsHeight (nodeFields kind fields source) + 1) (depth + 1)
          (node form source)
      rw [hsucc, hnode, within_succ]
      exact within_then rfl

end

/-! A node of unknown shape has no field beside its kind and its source. -/

section

variable {α : Type} {kind key : String} {source : Option SourceContext} {decode : Draft → Decoded α}
  (hkind : key ≠ "kind") (hsource : key ≠ "source")

include hkind hsource

theorem lookup_bare : (nodeFields kind [] source).lookup key = none := by
  have hk : (key == "kind") = false := beq_false_of_ne hkind
  have hs : (key == "source") = false := beq_false_of_ne hsource
  cases source <;> simp [nodeFields, sourceField, List.lookup_cons, hk, hs]

theorem field_bare :
    field (Json.fieldDrafts (nodeFields kind [] source)) key decode = .error .mismatch :=
  field_absent (lookup_bare hkind hsource)

theorem fieldD_bare {default : α} :
    fieldD (Json.fieldDrafts (nodeFields kind [] source)) key decode default = .ok default :=
  fieldD_absent (lookup_bare hkind hsource)

theorem field?_bare :
    field? (Json.fieldDrafts (nodeFields kind [] source)) key decode = .ok none :=
  fieldD_bare hkind hsource

end

/-! ## Expressions -/

theorem expr_ne_null (e : Expr) : e.toJson ≠ .null := by
  cases e
  nofun

theorem ExprForm.toFields_keys (form : ExprForm) : ∀ f ∈ form.toFields.2, f.1 ≠ "source" := by
  cases form <;> simp [ExprForm.toFields]

/-- A bare expression is of the shape that needs no fields, or of none. -/
theorem exprForm_bare (kind : String) (source : Option SourceContext) (depth : Nat) :
    shape .unrecognized kind (exprForm depth (expr depth) (exprs depth) (methodReference depth) kind
      (Json.fieldDrafts (nodeFields kind [] source))) = ExprForm.ofBare kind := by
  unfold exprForm
  split <;> simp (disch := decide) only [field_bare, field?_bare] <;>
    first | rfl | simp_all [shape, ExprForm.ofBare]

theorem reads_exprArray {items : List Json} {es : List Expr} (h : ReadsItems expr items es) :
    Reads exprs (.array items) es := h.array (fun _ _ => rfl) (fun _ _ => rfl)

theorem reads_method {target : Option Expr} {j : Json}
    (h : Reads (fun depth => optional (expr depth)) j target) (name : String) :
    Reads methodReference (.object [("target_object", j), ("method_name", .string name)])
      (target, name) :=
  Reads.record (fun _ _ => rfl) (fun _ _ => rfl) rfl fun depth =>
    .cons (h.map _ depth) <| .cons ((reads_string name).map _ depth) .nil

mutual

theorem reads_expr : (e : Expr) → FloatFree e.leaves → Reads expr e.toJson (rereading.onExpr e)
  | ⟨form, source⟩, h =>
      reads_node (fun _ _ => rfl) (fun _ _ => rfl) (ExprForm.toFields_keys form) source
        (exprForm_shape form h source)

theorem exprForm_shape : (form : ExprForm) → FloatFree form.leaves →
    (source : Option SourceContext) → (depth : Nat) →
    Json.fieldsHeight (nodeFields form.toFields.1 form.toFields.2 source) ≤ depth →
    shape .unrecognized form.toFields.1
      (exprForm depth (expr depth) (exprs depth) (methodReference depth) form.toFields.1
        (Json.fieldDrafts (nodeFields form.toFields.1 form.toFields.2 source))) =
      rereading.onExprForm form
  | .unrecognized kind, _, source, depth, _ => exprForm_bare kind source depth
  | .baseRef, _, _, _, _ | .setterValue, _, _, _, _ | .thisRef, _, _, _, _ => rfl
  | .argumentRef name, _, _, _, hd =>
      shape_ok <| bind_ok (field_ok hd (reads_string name).ok rfl) rfl
  | .variableRef name, _, _, _, hd =>
      shape_ok <| bind_ok (field_ok hd (reads_string name).ok rfl) rfl
  | .snippet value, _, _, _, hd =>
      shape_ok <| bind_ok (field_ok hd (reads_string value).ok rfl) rfl
  | .typeOf type, _, _, _, hd =>
      shape_ok <| bind_ok (field_ok hd (reads_type type).ok rfl) rfl
  | .typeRef type, _, _, _, hd =>
      shape_ok <| bind_ok (field_ok hd (reads_type type).ok rfl) rfl
  | .primitive value, h, _, _, hd =>
      shape_ok <| bind_ok (field_ok hd (primitive_ok value (h _ List.mem_cons_self)) rfl) rfl
  | .arrayCreate type initializers size sizeExpr, h, _, _, hd => by
      obtain ⟨hi, hs⟩ := floatFree_append.1 h
      exact shape_ok <|
        bind_ok (field_ok hd (reads_type type).ok rfl) <|
        bind_ok (fieldD_ok hd (reads_exprArray (reads_exprs initializers hi)).ok rfl) <|
        bind_ok (fieldD_ok hd (reads_int32 size).ok rfl) <|
        bind_ok (field?_ok hd (reads_exprOption sizeExpr hs).ok rfl) rfl
  | .arrayIndexer target indices, h, _, _, hd => by
      obtain ⟨ht, hi⟩ := floatFree_append.1 h
      exact shape_ok <|
        bind_ok (field_ok hd (reads_expr target ht).ok rfl) <|
        bind_ok (fieldD_ok hd (reads_exprArray (reads_exprs indices hi)).ok rfl) rfl
  | .binary left op right, h, _, _, hd => by
      obtain ⟨hl, hr⟩ := floatFree_append.1 h
      exact shape_ok <|
        bind_ok (field_ok hd (reads_expr left hl).ok rfl) <|
        bind_ok (field_ok hd (reads_operator op).ok rfl) <|
        bind_ok (field_ok hd (reads_expr right hr).ok rfl) rfl
  | .cast type operand, h, _, _, hd =>
      shape_ok <|
        bind_ok (field_ok hd (reads_type type).ok rfl) <|
        bind_ok (field_ok hd (reads_expr operand h).ok rfl) rfl
  | .delegateCreate type target method, h, _, _, hd =>
      shape_ok <|
        bind_ok (field_ok hd (reads_type type).ok rfl) <|
        bind_ok (field_ok hd (reads_expr target h).ok rfl) <|
        bind_ok (field_ok hd (reads_string method).ok rfl) rfl
  | .delegateInvoke target arguments, h, _, _, hd => by
      obtain ⟨ht, ha⟩ := floatFree_append.1 h
      exact shape_ok <|
        bind_ok (field_ok hd (reads_expr target ht).ok rfl) <|
        bind_ok (fieldD_ok hd (reads_exprArray (reads_exprs arguments ha)).ok rfl) rfl
  | .direction direction operand, h, _, _, hd =>
      shape_ok <|
        bind_ok (field_ok hd (reads_direction direction).ok rfl) <|
        bind_ok (field_ok hd (reads_expr operand h).ok rfl) rfl
  | .eventRef target name, h, _, _, hd =>
      shape_ok <|
        bind_ok (field_ok hd (reads_expr target h).ok rfl) <|
        bind_ok (field_ok hd (reads_string name).ok rfl) rfl
  | .fieldRef target name, h, _, _, hd =>
      shape_ok <|
        bind_ok (field?_ok hd (reads_exprOption target h).ok rfl) <|
        bind_ok (field_ok hd (reads_string name).ok rfl) rfl
  | .indexer target indices, h, _, _, hd => by
      obtain ⟨ht, hi⟩ := floatFree_append.1 h
      exact shape_ok <|
        bind_ok (field_ok hd (reads_expr target ht).ok rfl) <|
        bind_ok (fieldD_ok hd (reads_exprArray (reads_exprs indices hi)).ok rfl) rfl
  | .methodInvoke target method arguments, h, _, _, hd => by
      obtain ⟨ht, ha⟩ := floatFree_append.1 h
      exact shape_ok <|
        bind_ok (field_ok hd (reads_method (reads_exprOption target ht) method).ok rfl) <|
        bind_ok (fieldD_ok hd (reads_exprArray (reads_exprs arguments ha)).ok rfl) rfl
  | .methodRef target method, h, _, _, hd =>
      shape_ok <|
        bind_ok (field?_ok hd (reads_exprOption target h).ok rfl) <|
        bind_ok (field_ok hd (reads_string method).ok rfl) rfl
  | .objectCreate type arguments, h, _, _, hd =>
      shape_ok <|
        bind_ok (field_ok hd (reads_type type).ok rfl) <|
        bind_ok (fieldD_ok hd (reads_exprArray (reads_exprs arguments h)).ok rfl) rfl
  | .propertyRef target name, h, _, _, hd =>
      shape_ok <|
        bind_ok (field_ok hd (reads_expr target h).ok rfl) <|
        bind_ok (field_ok hd (reads_string name).ok rfl) rfl

theorem reads_exprs : (es : List Expr) → FloatFree (exprsLeaves es) →
    ReadsItems expr (exprsToJson es) (rereading.onExprs es)
  | [], _ => .nil
  | e :: es, h => by
      obtain ⟨he, hes⟩ := floatFree_append.1 h
      exact .cons (reads_expr e he) (reads_exprs es hes)

theorem reads_exprOption : (e : Option Expr) → FloatFree (exprOptionLeaves e) →
    Reads (fun depth => optional (expr depth)) (exprOptionToJson e) (rereading.onExprOption e)
  | none, _ => reads_none
  | some e, h => (reads_expr e h).some (expr_ne_null e)

end

/-! ## Statements -/

theorem stmt_ne_null (s : Stmt) : s.toJson ≠ .null := by
  cases s
  nofun

theorem StmtForm.toFields_keys (form : StmtForm) : ∀ f ∈ form.toFields.2, f.1 ≠ "source" := by
  cases form <;> simp [StmtForm.toFields]

theorem stmtForm_bare (kind : String) (source : Option SourceContext) (depth : Nat) :
    shape .unrecognized kind (stmtForm depth (stmt depth) (stmts depth) (catchClauses depth) kind
      (Json.fieldDrafts (nodeFields kind [] source))) = StmtForm.ofBare kind := by
  unfold stmtForm
  split <;> simp (disch := decide) only [field_bare, fieldD_bare, field?_bare] <;>
    first | rfl | simp_all [shape, StmtForm.ofBare]

theorem reads_stmtArray {items : List Json} {ss : List Stmt} (h : ReadsItems stmt items ss) :
    Reads stmts (.array items) ss := h.array (fun _ _ => rfl) (fun _ _ => rfl)

theorem reads_catchArray {items : List Json} {cs : List CatchClause}
    (h : ReadsItems catchClause items cs) : Reads catchClauses (.array items) cs :=
  h.array (fun _ _ => rfl) (fun _ _ => rfl)

mutual

theorem reads_stmt : (s : Stmt) → FloatFree s.leaves → Reads stmt s.toJson (rereading.onStmt s)
  | ⟨form, source⟩, h =>
      reads_node (fun _ _ => rfl) (fun _ _ => rfl) (StmtForm.toFields_keys form) source
        (stmtForm_shape form h source)

theorem stmtForm_shape : (form : StmtForm) → FloatFree form.leaves →
    (source : Option SourceContext) → (depth : Nat) →
    Json.fieldsHeight (nodeFields form.toFields.1 form.toFields.2 source) ≤ depth →
    shape .unrecognized form.toFields.1
      (stmtForm depth (stmt depth) (stmts depth) (catchClauses depth) form.toFields.1
        (Json.fieldDrafts (nodeFields form.toFields.1 form.toFields.2 source))) =
      rereading.onStmtForm form
  | .unrecognized kind, _, source, depth, _ => stmtForm_bare kind source depth
  | .assign left right, h, _, _, hd => by
      obtain ⟨hl, hr⟩ := floatFree_append.1 h
      exact shape_ok <|
        bind_ok (field_ok hd (reads_expr left hl).ok rfl) <|
        bind_ok (field_ok hd (reads_expr right hr).ok rfl) rfl
  | .attachEvent event listener, h, _, _, hd => by
      obtain ⟨he, hl⟩ := floatFree_append.1 h
      exact shape_ok <|
        bind_ok (field_ok hd (reads_expr event he).ok rfl) <|
        bind_ok (field_ok hd (reads_expr listener hl).ok rfl) rfl
  | .removeEvent event listener, h, _, _, hd => by
      obtain ⟨he, hl⟩ := floatFree_append.1 h
      exact shape_ok <|
        bind_ok (field_ok hd (reads_expr event he).ok rfl) <|
        bind_ok (field_ok hd (reads_expr listener hl).ok rfl) rfl
  | .comment text, _, _, _, hd =>
      shape_ok <| bind_ok (fieldD_ok hd (reads_string text).ok rfl) rfl
  | .condition condition whenTrue whenFalse, h, _, _, hd => by
      obtain ⟨hc, h⟩ := floatFree_append.1 h
      obtain ⟨ht, hf⟩ := floatFree_append.1 h
      exact shape_ok <|
        bind_ok (field_ok hd (reads_expr condition hc).ok rfl) <|
        bind_ok (fieldD_ok hd (reads_stmtArray (reads_stmts whenTrue ht)).ok rfl) <|
        bind_ok (fieldD_ok hd (reads_stmtArray (reads_stmts whenFalse hf)).ok rfl) rfl
  | .expression expression, h, _, _, hd =>
      shape_ok <| bind_ok (field_ok hd (reads_expr expression h).ok rfl) rfl
  | .goto label, _, _, _, hd =>
      shape_ok <| bind_ok (field_ok hd (reads_string label).ok rfl) rfl
  | .iteration init test increment body, h, _, _, hd => by
      obtain ⟨hi, h⟩ := floatFree_append.1 h
      obtain ⟨ht, h⟩ := floatFree_append.1 h
      obtain ⟨hn, hb⟩ := floatFree_append.1 h
      exact shape_ok <|
        bind_ok (field?_ok hd (reads_stmtOption init hi).ok rfl) <|
        bind_ok (field?_ok hd (reads_exprOption test ht).ok rfl) <|
        bind_ok (field?_ok hd (reads_stmtOption increment hn).ok rfl) <|
        bind_ok (fieldD_ok hd (reads_stmtArray (reads_stmts body hb)).ok rfl) rfl
  | .labeled label statement, h, _, _, hd =>
      shape_ok <|
        bind_ok (field_ok hd (reads_string label).ok rfl) <|
        bind_ok (field?_ok hd (reads_stmtOption statement h).ok rfl) rfl
  | .methodReturn value, h, _, _, hd =>
      shape_ok <| bind_ok (field?_ok hd (reads_exprOption value h).ok rfl) rfl
  | .snippet value pragma, _, _, _, hd =>
      shape_ok <|
        bind_ok (field_ok hd (reads_string value).ok rfl) <|
        bind_ok (field?_ok hd (reads_linePragmaOption pragma).ok rfl) rfl
  | .throwException value, h, _, _, hd =>
      shape_ok <| bind_ok (field?_ok hd (reads_exprOption value h).ok rfl) rfl
  | .tryCatchFinally body catches last, h, _, _, hd => by
      obtain ⟨hb, h⟩ := floatFree_append.1 h
      obtain ⟨hc, hl⟩ := floatFree_append.1 h
      exact shape_ok <|
        bind_ok (fieldD_ok hd (reads_stmtArray (reads_stmts body hb)).ok rfl) <|
        bind_ok (fieldD_ok hd (reads_catchArray (reads_catches catches hc)).ok rfl) <|
        bind_ok (fieldD_ok hd (reads_stmtArray (reads_stmts last hl)).ok rfl) rfl
  | .variableDeclaration name type init, h, _, _, hd =>
      shape_ok <|
        bind_ok (field_ok hd (reads_string name).ok rfl) <|
        bind_ok (field_ok hd (reads_type type).ok rfl) <|
        bind_ok (field?_ok hd (reads_exprOption init h).ok rfl) rfl

theorem reads_stmts : (ss : List Stmt) → FloatFree (stmtsLeaves ss) →
    ReadsItems stmt (stmtsToJson ss) (rereading.onStmts ss)
  | [], _ => .nil
  | s :: ss, h => by
      obtain ⟨hs, hss⟩ := floatFree_append.1 h
      exact .cons (reads_stmt s hs) (reads_stmts ss hss)

theorem reads_stmtOption : (s : Option Stmt) → FloatFree (stmtOptionLeaves s) →
    Reads (fun depth => optional (stmt depth)) (stmtOptionToJson s) (rereading.onStmtOption s)
  | none, _ => reads_none
  | some s, h => (reads_stmt s h).some (stmt_ne_null s)

theorem reads_catches : (cs : List CatchClause) → FloatFree (catchesLeaves cs) →
    ReadsItems catchClause (catchesToJson cs) (rereading.onCatches cs)
  | [], _ => .nil
  | ⟨localName, exceptionType, statements⟩ :: cs, h => by
      obtain ⟨hs, hcs⟩ := floatFree_append.1 h
      refine .cons ?_ (reads_catches cs hcs)
      exact Reads.record (fun _ _ => rfl) (fun _ _ => rfl) rfl fun depth =>
        .cons ((reads_string localName).map _ depth) <|
        .cons ((reads_typeOption exceptionType).map _ depth) <|
        .cons ((reads_stmtArray (reads_stmts statements hs)).map _ depth) .nil

end

/-! ## Declarations -/

theorem reads_attributes (as : List Attribute) (h : FloatFree (attributesLeaves as)) :
    Reads attributes (attributesToJson as) (as.map rereading.onAttribute) := by
  refine Reads.list as fun a ha => ?_
  have harguments : Reads (list attributeArgument) (.array (a.arguments.map (·.toJson)))
      (a.arguments.map rereading.onArgument) := by
    refine Reads.list a.arguments fun argument hargument => ?_
    have hvalue := floatFree_flatMap (floatFree_flatMap h a ha) argument hargument
    exact Reads.record (fun _ _ => rfl) (fun _ _ => rfl) rfl fun depth =>
      .cons ((reads_stringOption argument.name).map _ depth) <|
      .cons ((reads_expr argument.value hvalue).map _ depth) .nil
  exact Reads.record (fun _ _ => rfl) (fun _ _ => rfl) rfl fun depth =>
    .cons ((reads_string a.name).map _ depth) <| .cons (harguments.map _ depth) .nil

theorem reads_parameters (ps : List Parameter) (h : FloatFree (parametersLeaves ps)) :
    Reads parameters (parametersToJson ps) (ps.map rereading.onParameter) := by
  refine Reads.list ps fun p hp => ?_
  have hattributes := reads_attributes p.customAttributes (floatFree_flatMap h p hp)
  exact Reads.record (fun _ _ => rfl) (fun _ _ => rfl) rfl fun depth =>
    .cons ((reads_string p.name).map _ depth) <|
    .cons ((reads_type p.type).map _ depth) <|
    .cons ((reads_direction p.direction).map _ depth) <|
    .cons (hattributes.map _ depth) .nil

theorem reads_memberAttributes (a : MemberAttributes) :
    Reads (fun _ => memberAttributes) (.ofNat a.bits.toNat) a := (reads_uint32 a.bits).map _

section

variable {kind : String} {source : Option SourceContext} {depth : Nat}

theorem fieldDeclaration_ok (d : FieldDeclaration) (h : FloatFree d.leaves)
    (hd : Json.fieldsHeight (nodeFields kind d.toFields source) ≤ depth) :
    fieldDeclaration depth (Json.fieldDrafts (nodeFields kind d.toFields source)) =
      .ok (rereading.onField d) := by
  obtain ⟨hi, ha⟩ := floatFree_append.1 h
  exact
    bind_ok (field_ok hd (reads_string d.name).ok rfl) <|
    bind_ok (fieldD_ok hd (reads_memberAttributes d.attributes).ok rfl) <|
    bind_ok (field_ok hd (reads_type d.type).ok rfl) <|
    bind_ok (field?_ok hd (reads_exprOption d.init hi).ok rfl) <|
    bind_ok (fieldD_ok hd (reads_attributes d.customAttributes ha).ok rfl) rfl

theorem methodDeclaration_ok (d : MethodDeclaration) (h : FloatFree d.leaves)
    (hd : Json.fieldsHeight (nodeFields kind d.toFields source) ≤ depth) :
    methodDeclaration depth (Json.fieldDrafts (nodeFields kind d.toFields source)) =
      .ok (rereading.onMethod d) := by
  obtain ⟨hp, h⟩ := floatFree_append.1 h
  obtain ⟨hr, h⟩ := floatFree_append.1 h
  obtain ⟨hs, ha⟩ := floatFree_append.1 h
  exact
    bind_ok (field_ok hd (reads_string d.name).ok rfl) <|
    bind_ok (fieldD_ok hd (reads_memberAttributes d.attributes).ok rfl) <|
    bind_ok (fieldD_ok hd (reads_parameters d.parameters hp).ok rfl) <|
    bind_ok (field?_ok hd (reads_typeOption d.returnType).ok rfl) <|
    bind_ok (fieldD_ok hd (reads_attributes d.returnAttributes hr).ok rfl) <|
    bind_ok (fieldD_ok hd (reads_stmtArray (reads_stmts d.statements hs)).ok rfl) <|
    bind_ok (fieldD_ok hd (reads_types d.implementationTypes).ok rfl) <|
    bind_ok (field?_ok hd (reads_typeOption d.privateImplementationType).ok rfl) <|
    bind_ok (fieldD_ok hd (reads_attributes d.customAttributes ha).ok rfl) rfl

theorem constructorDeclaration_ok (d : ConstructorDeclaration) (h : FloatFree d.leaves)
    (hd : Json.fieldsHeight (nodeFields kind d.toFields source) ≤ depth) :
    constructorDeclaration depth (Json.fieldDrafts (nodeFields kind d.toFields source)) =
      .ok (rereading.onConstructor d) := by
  obtain ⟨hp, h⟩ := floatFree_append.1 h
  obtain ⟨hs, h⟩ := floatFree_append.1 h
  obtain ⟨hb, h⟩ := floatFree_append.1 h
  obtain ⟨hc, ha⟩ := floatFree_append.1 h
  exact
    bind_ok (fieldD_ok hd (reads_memberAttributes d.attributes).ok rfl) <|
    bind_ok (fieldD_ok hd (reads_parameters d.parameters hp).ok rfl) <|
    bind_ok (fieldD_ok hd (reads_stmtArray (reads_stmts d.statements hs)).ok rfl) <|
    bind_ok (fieldD_ok hd (reads_exprArray (reads_exprs d.baseArguments hb)).ok rfl) <|
    bind_ok (fieldD_ok hd (reads_exprArray (reads_exprs d.chainedArguments hc)).ok rfl) <|
    bind_ok (fieldD_ok hd (reads_attributes d.customAttributes ha).ok rfl) rfl

theorem propertyDeclaration_ok (d : PropertyDeclaration) (h : FloatFree d.leaves)
    (hd : Json.fieldsHeight (nodeFields kind d.toFields source) ≤ depth) :
    propertyDeclaration depth (Json.fieldDrafts (nodeFields kind d.toFields source)) =
      .ok (rereading.onProperty d) := by
  obtain ⟨hp, h⟩ := floatFree_append.1 h
  obtain ⟨hg, h⟩ := floatFree_append.1 h
  obtain ⟨hs, ha⟩ := floatFree_append.1 h
  exact
    bind_ok (field_ok hd (reads_string d.name).ok rfl) <|
    bind_ok (fieldD_ok hd (reads_memberAttributes d.attributes).ok rfl) <|
    bind_ok (field_ok hd (reads_type d.type).ok rfl) <|
    bind_ok (fieldD_ok hd (reads_parameters d.parameters hp).ok rfl) <|
    bind_ok (fieldD_ok hd (reads_bool d.hasGet).ok rfl) <|
    bind_ok (fieldD_ok hd (reads_bool d.hasSet).ok rfl) <|
    bind_ok (fieldD_ok hd (reads_stmtArray (reads_stmts d.getStatements hg)).ok rfl) <|
    bind_ok (fieldD_ok hd (reads_stmtArray (reads_stmts d.setStatements hs)).ok rfl) <|
    bind_ok (fieldD_ok hd (reads_types d.implementationTypes).ok rfl) <|
    bind_ok (field?_ok hd (reads_typeOption d.privateImplementationType).ok rfl) <|
    bind_ok (fieldD_ok hd (reads_attributes d.customAttributes ha).ok rfl) rfl

theorem eventDeclaration_ok (d : EventDeclaration) (h : FloatFree d.leaves)
    (hd : Json.fieldsHeight (nodeFields kind d.toFields source) ≤ depth) :
    eventDeclaration depth (Json.fieldDrafts (nodeFields kind d.toFields source)) =
      .ok (rereading.onEvent d) :=
  bind_ok (field_ok hd (reads_string d.name).ok rfl) <|
  bind_ok (fieldD_ok hd (reads_memberAttributes d.attributes).ok rfl) <|
  bind_ok (field_ok hd (reads_type d.type).ok rfl) <|
  bind_ok (fieldD_ok hd (reads_types d.implementationTypes).ok rfl) <|
  bind_ok (field?_ok hd (reads_typeOption d.privateImplementationType).ok rfl) <|
  bind_ok (fieldD_ok hd (reads_attributes d.customAttributes h).ok rfl) rfl

end

/-- One field of the kind of a type, while the name of the kind is looked for. -/
def kindStep (depth : Nat) (name : Option String) (key : String) (d : Draft) :
    Decoded (Option String) :=
  if key = "kind" then some <$> kindName d
  else do
    whole depth d
    return name

theorem reads_typeKind (kind : TypeKind) (h : FloatFree kind.leaves) :
    Reads typeKind kind.toJson (rereading.onTypeKind kind) := by
  intro depth
  cases depth with
  | zero => cases kind <;> exact (within_succ_zero _ _).symm
  | succ depth =>
      cases kind with
      | delegateType parameters returnType =>
          have hpassed : ∀ (name : Option String) (j : Json),
              (whole depth j.draft >>= fun _ => pure name) = within j.height depth name := by
            intro name j
            rw [whole_draft]
            exact within_then rfl
          have hfields : Gathers (kindStep depth) depth none
              [("kind", .string "Delegate"), ("parameters", parametersToJson parameters),
                ("return_type", Json.option TypeReference.toJson returnType)] (some "Delegate") :=
            .cons (within_zero depth _).symm <| .cons (hpassed _ _) <| .cons (hpassed _ _) .nil
          show (foldFields (kindStep depth) none _ >>= _) = within (_ + 1) (depth + 1) _
          rw [hfields.foldFields, within_succ]
          unfold within
          split
          case isTrue hd =>
            exact bind_ok rfl <| bind_ok rfl <|
              bind_ok (fieldD_ok hd (reads_parameters parameters h).ok rfl) <|
              bind_ok (field?_ok hd (reads_typeOption returnType).ok rfl) rfl
          case isFalse => rfl
      | _ => exact (within_of_le (Nat.succ_le_succ (Nat.zero_le depth)) _).symm

/-! ## Members and types -/

theorem MemberForm.toFields_keys (form : MemberForm) (h : SourceFree form.nestedTypes) :
    ∀ f ∈ form.toFields.2, f.1 ≠ "source" := by
  cases form with
  | nestedType d =>
      obtain ⟨name, kind, attributes, baseTypes, members, customAttributes, source⟩ := d
      obtain rfl : source = none := (sourceFree_cons.1 h).1
      simp [MemberForm.toFields, TypeDeclaration.toFields, sourceField]
  | _ =>
      simp [MemberForm.toFields, FieldDeclaration.toFields, MethodDeclaration.toFields,
        ConstructorDeclaration.toFields, PropertyDeclaration.toFields, EventDeclaration.toFields]

theorem memberForm_bare (kind : String) (source : Option SourceContext) (depth : Nat) :
    shape .unrecognized kind (memberForm depth (members depth) kind
      (Json.fieldDrafts (nodeFields kind [] source))) = MemberForm.ofBare kind := by
  unfold memberForm
  split
  case h_8 =>
    have hrefused : ∃ e, gather typeKeys (typeStep depth (members depth)) emptyType
        (Json.fieldDrafts (nodeFields "NestedType" [] source)) none = .error e :=
      gather_absent (show "name" ∈ typeKeys by decide) (lookup_bare (by decide) (by decide))
    obtain ⟨e, he⟩ := hrefused
    rw [he]
    rfl
  case h_9 => simp_all [shape, MemberForm.ofBare]
  all_goals
    simp (disch := decide) only [fieldDeclaration, methodDeclaration, constructorDeclaration,
      propertyDeclaration, eventDeclaration, field_bare, fieldD_bare, field?_bare]
    rfl

theorem reads_memberArray {items : List Json} {ms : List Member} (h : ReadsItems member items ms) :
    Reads members (.array items) ms := h.array (fun _ _ => rfl) (fun _ _ => rfl)

/-- The fields of a type beside its source. -/
def typePayload : TypeDeclaration → List (String × Json)
  | ⟨name, kind, attributes, baseTypes, members, customAttributes, _⟩ =>
    [("name", .string name), ("type_kind", kind.toJson),
     ("type_attributes", .ofNat attributes.bits.toNat), ("base_types", typesToJson baseTypes),
     ("members", .array (membersToJson members)),
     ("custom_attributes", attributesToJson customAttributes)]

theorem toFields_eq (d : TypeDeclaration) : d.toFields = typePayload d ++ sourceField d.source := by
  cases d
  rfl

/-- The node of a nested type has its own fields around those of the type, which passes over
    them. -/
theorem gather_nestedType {d t : TypeDeclaration} {depth : Nat} {source : Option SourceContext}
    (hsource : d.source = none)
    (hpayload : Gathers (typeStep depth (members depth)) depth emptyType (typePayload d) t)
    (hd : Json.fieldsHeight (nodeFields "NestedType" d.toFields source) ≤ depth) :
    gather typeKeys (typeStep depth (members depth)) emptyType
      (Json.fieldDrafts (nodeFields "NestedType" d.toFields source)) none = .ok t := by
  have hfields : d.toFields = typePayload d := by
    rw [toFields_eq, hsource]
    exact List.append_nil _
  rw [hfields] at hd ⊢
  have hlast : Gathers (typeStep depth (members depth)) depth t (sourceField source) t := by
    cases source with
    | none => exact .nil
    | some s =>
        rw [nodeFields, Json.fieldsHeight_append] at hd
        have hs : (sourceToJson s).height ≤ depth := by
          simp only [sourceField, Json.fieldsHeight] at hd
          omega
        exact .cons (within_of_le hs t).symm .nil
  have hgathers : Gathers (typeStep depth (members depth)) depth emptyType
      (nodeFields "NestedType" (typePayload d) source) t :=
    .cons (within_zero depth emptyType).symm (hpayload.append hlast)
  rw [hgathers.gather (by cases d; rfl), within_of_le hd]

mutual

theorem reads_member : (m : Member) → FloatFree m.leaves → SourceFree m.nestedTypes →
    Reads member m.toJson (rereading.onMember m)
  | ⟨form, source⟩, h, hn =>
      reads_node (fun _ _ => rfl) (fun _ _ => rfl) (MemberForm.toFields_keys form hn) source
        (memberForm_shape form h hn source)

theorem memberForm_shape : (form : MemberForm) → FloatFree form.leaves →
    SourceFree form.nestedTypes → (source : Option SourceContext) → (depth : Nat) →
    Json.fieldsHeight (nodeFields form.toFields.1 form.toFields.2 source) ≤ depth →
    shape .unrecognized form.toFields.1
      (memberForm depth (members depth) form.toFields.1
        (Json.fieldDrafts (nodeFields form.toFields.1 form.toFields.2 source))) =
      rereading.onMemberForm form
  | .unrecognized kind, _, _, source, depth, _ => memberForm_bare kind source depth
  | .field d, h, _, _, _, hd => shape_ok (map_ok (fieldDeclaration_ok d h hd) _)
  | .method d, h, _, _, _, hd => shape_ok (map_ok (methodDeclaration_ok d h hd) _)
  | .entryPoint d, h, _, _, _, hd => shape_ok (map_ok (methodDeclaration_ok d h hd) _)
  | .constructor d, h, _, _, _, hd => shape_ok (map_ok (constructorDeclaration_ok d h hd) _)
  | .property d, h, _, _, _, hd => shape_ok (map_ok (propertyDeclaration_ok d h hd) _)
  | .event d, h, _, _, _, hd => shape_ok (map_ok (eventDeclaration_ok d h hd) _)
  | .snippet text pragma, _, _, _, _, hd =>
      shape_ok <|
        bind_ok (field_ok hd (reads_string text).ok rfl) <|
        bind_ok (field?_ok hd (reads_linePragmaOption pragma).ok rfl) rfl
  | .nestedType d, h, hn, _, depth, hd => by
      obtain ⟨hsource, hn⟩ := sourceFree_cons.1 hn
      have htype := gather_nestedType hsource (gathers_type d h hn depth) hd
      have hsame : { rereading.onType d with source := none } = rereading.onType d := by
        cases d
        cases hsource
        rfl
      rw [hsame] at htype
      exact shape_ok (map_ok htype _)

theorem gathers_type : (d : TypeDeclaration) → FloatFree d.leaves → SourceFree d.nestedTypes →
    (depth : Nat) → Gathers (typeStep depth (members depth)) depth emptyType (typePayload d)
      { rereading.onType d with source := none }
  | ⟨name, kind, attributes, baseTypes, members, customAttributes, _⟩, h, hn, depth => by
      obtain ⟨hk, h⟩ := floatFree_append.1 h
      obtain ⟨hm, ha⟩ := floatFree_append.1 h
      exact
        .cons ((reads_string name).map _ depth) <|
        .cons ((reads_typeKind kind hk).map _ depth) <|
        .cons ((reads_uint32 attributes.bits).map _ depth) <|
        .cons ((reads_types baseTypes).map _ depth) <|
        .cons ((reads_memberArray (reads_members members hm hn)).map _ depth) <|
        .cons ((reads_attributes customAttributes ha).map _ depth) .nil

theorem reads_members : (ms : List Member) → FloatFree (membersLeaves ms) →
    SourceFree (membersNestedTypes ms) →
    ReadsItems member (membersToJson ms) (rereading.onMembers ms)
  | [], _, _ => .nil
  | m :: ms, h, hn => by
      obtain ⟨hm, hms⟩ := floatFree_append.1 h
      obtain ⟨hnm, hnms⟩ := sourceFree_append.1 hn
      exact .cons (reads_member m hm hnm) (reads_members ms hms hnms)

end

theorem reads_typeDeclaration (d : TypeDeclaration) (h : FloatFree d.leaves)
    (hn : SourceFree d.nestedTypes) : Reads typeDeclaration d.toJson (rereading.onType d) := by
  rw [TypeDeclaration.toJson, toFields_eq]
  refine Reads.record (fun _ _ => rfl) (fun _ _ => rfl) (by cases d; rfl) fun depth => ?_
  have hpayload : Gathers (typeDeclaration.step depth) depth emptyType (typePayload d)
      { rereading.onType d with source := none } := by
    refine (gathers_type d h hn depth).congr ?_
    cases d
    simp [typePayload, typeDeclaration.step]
  have hsource : Gathers (typeDeclaration.step depth) depth
      { rereading.onType d with source := none } (sourceField d.source) (rereading.onType d) := by
    obtain ⟨name, kind, attributes, baseTypes, members, customAttributes, source⟩ := d
    cases source with
    | none => exact .nil
    | some s => exact .cons ((reads_someSource s).map _ depth) .nil
  exact hpayload.append hsource

theorem reads_namespace (n : Namespace)
    (h : FloatFree (n.types.flatMap TypeDeclaration.leaves))
    (hn : SourceFree (n.types.flatMap TypeDeclaration.nestedTypes)) :
    Reads namespaceNode n.toJson (rereading.onNamespace n) := by
  have htypes : Reads (list typeDeclaration) (.array (n.types.map (·.toJson)))
      (n.types.map rereading.onType) :=
    Reads.list n.types fun d hd =>
      reads_typeDeclaration d (floatFree_flatMap h d hd) (sourceFree_flatMap.1 hn d hd)
  refine Reads.record (fun _ _ => rfl) (fun _ _ => rfl) rfl fun depth => ?_
  refine .cons ((reads_string n.name).map _ depth) <|
    .cons ((reads_strings n.imports).map _ depth) <|
    .cons (htypes.map _ depth) ?_
  obtain ⟨name, imports, types, source⟩ := n
  cases source with
  | none => exact .nil
  | some s => exact .cons ((reads_someSource s).map _ depth) .nil

theorem reads_unitSnippet (s : Option UnitSnippet) :
    Reads (fun depth => optional (unitSnippet depth)) (Json.option UnitSnippet.toJson s) s := by
  have h := reads_option (f := id) nofun s fun s _ =>
    show Reads unitSnippet s.toJson s from
      Reads.record (fun _ _ => rfl) (fun _ _ => rfl) rfl fun depth =>
        .cons ((reads_string s.value).map _ depth) <|
        .cons ((reads_linePragmaOption s.pragma).map _ depth) .nil
  rwa [Option.map_id] at h

theorem reads_symbols (symbols : Option (List String)) :
    Reads (fun depth => optional (list (fun _ => string) depth))
      (Json.option Json.strings symbols) symbols := by
  have h := reads_option (f := id) nofun symbols fun texts _ => reads_strings texts
  rwa [Option.map_id] at h

/-- The written form of a unit is taken for the rereading of the unit. -/
theorem reads_unit (u : CompileUnit) (h : FloatFree u.leaves) (hn : SourceFree u.nestedTypes) :
    Reads compileUnit u.toJson (rereading.onUnit u) := by
  obtain ⟨ht, ha⟩ := floatFree_append.1 h
  have hnamespaces : Reads (list namespaceNode) (.array (u.namespaces.map (·.toJson)))
      (u.namespaces.map rereading.onNamespace) :=
    Reads.list u.namespaces fun n hmem =>
      reads_namespace n (floatFree_flatMap ht n hmem) (sourceFree_flatMap.1 hn n hmem)
  exact Reads.record (fun _ _ => rfl) (fun _ _ => rfl) rfl fun depth =>
    .cons (hnamespaces.map _ depth) <|
    .cons ((reads_strings u.referencedAssemblies).map _ depth) <|
    .cons ((reads_attributes u.assemblyAttributes ha).map _ depth) <|
    .cons ((reads_symbols u.definedSymbols).map _ depth) <|
    .cons ((reads_unitSnippet u.snippet).map _ depth) .nil

end MiddleEnd.CodeTree.Reader
