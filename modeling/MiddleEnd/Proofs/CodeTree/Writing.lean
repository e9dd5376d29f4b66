/-
  The numbers in the written form of a code tree. Apart from floating-point constants all of them
  are whole and fit 64 bits, so the written form of a tree without such constants is one that
  scanning gives back (`CompileUnit.toJson_exact`).
-/
import MiddleEnd.CodeTree.Writer
import MiddleEnd.Proofs.CodeTree.Leaves
import MiddleEnd.Proofs.Json.Scanning

namespace MiddleEnd

namespace Json

theorem exact_ofNat {n : Nat} (h : n < 18446744073709551616) : (ofNat n).Exact :=
  show (-9223372036854775808 : Int) ≤ n ∧ (n : Int) < 18446744073709551616 by omega

theorem exact_ofInt {i : Int} (hl : -9223372036854775808 ≤ i) (hg : i < 9223372036854775808) :
    (ofInt i).Exact :=
  show -9223372036854775808 ≤ i ∧ i < 18446744073709551616 by omega

theorem exact_option {α : Type} {encode : α → Json} (h : ∀ a, (encode a).Exact) (o : Option α) :
    (option encode o).Exact := by
  cases o with
  | none => trivial
  | some a => exact h a

theorem exactItems_map {α : Type} {encode : α → Json} (as : List α)
    (h : ∀ a ∈ as, (encode a).Exact) : ExactItems (as.map encode) := by
  induction as with
  | nil => trivial
  | cons a as ih =>
      rw [List.forall_mem_cons] at h
      exact ⟨h.1, ih h.2⟩

theorem exactFields_append {fs gs : List (String × Json)} (hf : ExactFields fs)
    (hg : ExactFields gs) : ExactFields (fs ++ gs) := by
  induction fs with
  | nil => exact hg
  | cons f fs ih => exact ⟨hf.1, ih hf.2⟩

end Json

namespace CodeTree

open Json (ExactFields ExactItems exact_ofNat exact_ofInt exact_option exactItems_map
  exactFields_append)

/-! ## Constants, sources and types -/

/-- The constants that are written as anything but whole numbers and texts. -/
def Primitive.isFloat : Primitive → Bool
  | .single _ | .double _ => true
  | _ => false

def Leaf.isFloat : Leaf → Bool
  | .constant value => value.isFloat
  | .unknown _ _ => false

/-- None of the leaves is a floating-point constant. -/
def FloatFree (leaves : List Leaf) : Prop := ∀ leaf ∈ leaves, leaf.isFloat = false

instance (leaves : List Leaf) : Decidable (FloatFree leaves) :=
  inferInstanceAs (Decidable (∀ leaf ∈ leaves, leaf.isFloat = false))

theorem floatFree_append {as bs : List Leaf} :
    FloatFree (as ++ bs) ↔ FloatFree as ∧ FloatFree bs := List.forall_mem_append

theorem floatFree_flatMap {α : Type} {leaves : α → List Leaf} {as : List α}
    (h : FloatFree (as.flatMap leaves)) (a : α) (ha : a ∈ as) : FloatFree (leaves a) :=
  fun leaf hleaf => h leaf (List.mem_flatMap_of_mem ha hleaf)

theorem exact_word (n : UInt32) : (Json.ofNat n.toNat).Exact :=
  exact_ofNat (by have := n.toNat_lt; omega)

theorem exact_longWord (n : UInt64) : (Json.ofNat n.toNat).Exact :=
  exact_ofNat n.toNat_lt

theorem exact_long (i : Int64) : (Json.ofInt i.toInt).Exact :=
  exact_ofInt i.le_toInt i.toInt_lt

theorem Primitive.toJson_exact (value : Primitive) (h : value.isFloat = false) :
    value.toJson.Exact := by
  cases value with
  | null | boolean | char | string | dbNull => simp [toJson, Json.Exact, ExactFields]
  | sbyte v =>
      exact ⟨exact_ofInt (by have := v.le_toInt; omega) (by have := v.toInt_lt; omega), trivial⟩
  | int16 v =>
      exact ⟨exact_ofInt (by have := v.le_toInt; omega) (by have := v.toInt_lt; omega), trivial⟩
  | int32 v =>
      exact ⟨exact_ofInt (by have := v.le_toInt; omega) (by have := v.toInt_lt; omega), trivial⟩
  | int64 v => exact ⟨exact_long v, trivial⟩
  | dateTime v => exact ⟨exact_long v, trivial⟩
  | byte v => exact ⟨exact_ofNat (by have := v.toNat_lt; omega), trivial⟩
  | uint16 v => exact ⟨exact_ofNat (by have := v.toNat_lt; omega), trivial⟩
  | uint32 v => exact ⟨exact_word v, trivial⟩
  | uint64 v => exact ⟨exact_longWord v, trivial⟩
  | decimal v =>
      exact ⟨⟨exact_long v.mantissa, exact_ofNat (by have := v.scale.toNat_lt; omega), trivial⟩,
        trivial⟩
  | single => cases h
  | double => cases h

theorem LinePragma.toJson_exact (p : LinePragma) : p.toJson.Exact :=
  ⟨trivial, exact_word p.lineNumber, trivial⟩

theorem textOption_exact (text : Option String) : (Json.option .string text).Exact := by
  cases text <;> trivial

theorem documentToJson_exact (d : Document) : (documentToJson d).Exact :=
  ⟨textOption_exact d.name, exact_word d.startLine, trivial, trivial⟩

theorem sourceField_exact (source : Option SourceContext) : ExactFields (sourceField source) := by
  cases source with
  | none => trivial
  | some s =>
      exact ⟨⟨documentToJson_exact s.document, exact_longWord s.offset, exact_longWord s.length,
        trivial⟩, trivial⟩

mutual

theorem TypeReference.toJson_exact : (t : TypeReference) → t.toJson.Exact
  | ⟨_, element, rank⟩ => ⟨trivial, elementToJson_exact element, exact_word rank, trivial⟩

theorem elementToJson_exact : (element : Option TypeReference) → (elementToJson element).Exact
  | none => trivial
  | some t => t.toJson_exact

end

theorem typesToJson_exact (ts : List TypeReference) : (typesToJson ts).Exact :=
  exactItems_map ts fun t _ => t.toJson_exact

theorem typeOption_exact (t : Option TypeReference) :
    (Json.option TypeReference.toJson t).Exact :=
  exact_option TypeReference.toJson_exact t

theorem strings_exact (texts : List String) : (Json.strings texts).Exact :=
  exactItems_map texts fun _ _ => trivial

theorem nodeToJson_exact {kind : String} {fields : List (String × Json)}
    (h : ExactFields fields) (source : Option SourceContext) :
    (nodeToJson kind fields source).Exact :=
  ⟨trivial, exactFields_append h (sourceField_exact source)⟩

/-! ## Expressions and statements -/

mutual

theorem Expr.toJson_exact : (e : Expr) → FloatFree e.leaves → e.toJson.Exact
  | ⟨form, source⟩, h => nodeToJson_exact (form.toFields_exact h) source

theorem ExprForm.toFields_exact : (form : ExprForm) → FloatFree form.leaves →
    ExactFields form.toFields.2
  | .unrecognized _, _ => trivial
  | .primitive value, h => ⟨value.toJson_exact (h _ List.mem_cons_self), trivial⟩
  | .arrayCreate type initializers size sizeExpr, h => by
      obtain ⟨hi, hs⟩ := floatFree_append.1 h
      exact ⟨type.toJson_exact, exprsToJson_exact initializers hi,
        exact_ofInt (by have := size.le_toInt; omega) (by have := size.toInt_lt; omega),
        exprOptionToJson_exact sizeExpr hs, trivial⟩
  | .arrayIndexer target indices, h | .indexer target indices, h
  | .delegateInvoke target indices, h => by
      obtain ⟨ht, hi⟩ := floatFree_append.1 h
      exact ⟨target.toJson_exact ht, exprsToJson_exact indices hi, trivial⟩
  | .binary left _ right, h => by
      obtain ⟨hl, hr⟩ := floatFree_append.1 h
      exact ⟨left.toJson_exact hl, trivial, right.toJson_exact hr, trivial⟩
  | .cast type operand, h => ⟨type.toJson_exact, operand.toJson_exact h, trivial⟩
  | .delegateCreate type target _, h =>
      ⟨type.toJson_exact, target.toJson_exact h, trivial, trivial⟩
  | .direction _ operand, h => ⟨trivial, operand.toJson_exact h, trivial⟩
  | .eventRef target _, h | .propertyRef target _, h => ⟨target.toJson_exact h, trivial, trivial⟩
  | .fieldRef target _, h | .methodRef target _, h =>
      ⟨exprOptionToJson_exact target h, trivial, trivial⟩
  | .methodInvoke target _ arguments, h => by
      obtain ⟨ht, ha⟩ := floatFree_append.1 h
      exact ⟨⟨exprOptionToJson_exact target ht, trivial, trivial⟩,
        exprsToJson_exact arguments ha, trivial⟩
  | .objectCreate type arguments, h =>
      ⟨type.toJson_exact, exprsToJson_exact arguments h, trivial⟩
  | .typeOf type, _ | .typeRef type, _ => ⟨type.toJson_exact, trivial⟩
  | .argumentRef _, _ | .snippet _, _ | .variableRef _, _ => ⟨trivial, trivial⟩
  | .baseRef, _ | .setterValue, _ | .thisRef, _ => trivial

theorem exprsToJson_exact : (es : List Expr) → FloatFree (exprsLeaves es) →
    ExactItems (exprsToJson es)
  | [], _ => trivial
  | e :: es, h => by
      obtain ⟨he, hes⟩ := floatFree_append.1 h
      exact ⟨e.toJson_exact he, exprsToJson_exact es hes⟩

theorem exprOptionToJson_exact : (e : Option Expr) → FloatFree (exprOptionLeaves e) →
    (exprOptionToJson e).Exact
  | none, _ => trivial
  | some e, h => e.toJson_exact h

end

mutual

theorem Stmt.toJson_exact : (s : Stmt) → FloatFree s.leaves → s.toJson.Exact
  | ⟨form, source⟩, h => nodeToJson_exact (form.toFields_exact h) source

theorem StmtForm.toFields_exact : (form : StmtForm) → FloatFree form.leaves →
    ExactFields form.toFields.2
  | .unrecognized _, _ => trivial
  | .assign left right, h | .attachEvent left right, h | .removeEvent left right, h => by
      obtain ⟨hl, hr⟩ := floatFree_append.1 h
      exact ⟨left.toJson_exact hl, right.toJson_exact hr, trivial⟩
  | .condition condition whenTrue whenFalse, h => by
      obtain ⟨hc, h⟩ := floatFree_append.1 h
      obtain ⟨ht, hf⟩ := floatFree_append.1 h
      exact ⟨condition.toJson_exact hc, stmtsToJson_exact whenTrue ht,
        stmtsToJson_exact whenFalse hf, trivial⟩
  | .expression expression, h => ⟨expression.toJson_exact h, trivial⟩
  | .iteration init test increment body, h => by
      obtain ⟨hi, h⟩ := floatFree_append.1 h
      obtain ⟨ht, h⟩ := floatFree_append.1 h
      obtain ⟨hn, hb⟩ := floatFree_append.1 h
      exact ⟨stmtOptionToJson_exact init hi, exprOptionToJson_exact test ht,
        stmtOptionToJson_exact increment hn, stmtsToJson_exact body hb, trivial⟩
  | .labeled _ statement, h => ⟨trivial, stmtOptionToJson_exact statement h, trivial⟩
  | .methodReturn value, h | .throwException value, h => ⟨exprOptionToJson_exact value h, trivial⟩
  | .tryCatchFinally body catches last, h => by
      obtain ⟨hb, h⟩ := floatFree_append.1 h
      obtain ⟨hc, hl⟩ := floatFree_append.1 h
      exact ⟨stmtsToJson_exact body hb, catchesToJson_exact catches hc, stmtsToJson_exact last hl,
        trivial⟩
  | .variableDeclaration _ type init, h =>
      ⟨trivial, type.toJson_exact, exprOptionToJson_exact init h, trivial⟩
  | .snippet _ pragma, _ => ⟨trivial, exact_option LinePragma.toJson_exact pragma, trivial⟩
  | .comment _, _ | .goto _, _ => ⟨trivial, trivial⟩

theorem stmtsToJson_exact : (ss : List Stmt) → FloatFree (stmtsLeaves ss) →
    ExactItems (stmtsToJson ss)
  | [], _ => trivial
  | s :: ss, h => by
      obtain ⟨hs, hss⟩ := floatFree_append.1 h
      exact ⟨s.toJson_exact hs, stmtsToJson_exact ss hss⟩

theorem stmtOptionToJson_exact : (s : Option Stmt) → FloatFree (stmtOptionLeaves s) →
    (stmtOptionToJson s).Exact
  | none, _ => trivial
  | some s, h => s.toJson_exact h

theorem catchesToJson_exact : (cs : List CatchClause) → FloatFree (catchesLeaves cs) →
    ExactItems (catchesToJson cs)
  | [], _ => trivial
  | ⟨_, exceptionType, statements⟩ :: cs, h => by
      obtain ⟨hs, hcs⟩ := floatFree_append.1 h
      exact ⟨⟨trivial, typeOption_exact exceptionType, stmtsToJson_exact statements hs, trivial⟩,
        catchesToJson_exact cs hcs⟩

end

/-! ## Declarations -/

theorem attributesToJson_exact (as : List Attribute) (h : FloatFree (attributesLeaves as)) :
    (attributesToJson as).Exact := by
  refine exactItems_map as fun a ha => ?_
  refine ⟨trivial, exactItems_map a.arguments fun argument hargument => ?_, trivial⟩
  have hvalue := floatFree_flatMap (floatFree_flatMap h a ha) argument hargument
  exact ⟨textOption_exact argument.name, argument.value.toJson_exact hvalue, trivial⟩

theorem parametersToJson_exact (ps : List Parameter) (h : FloatFree (parametersLeaves ps)) :
    (parametersToJson ps).Exact :=
  exactItems_map ps fun p hp => ⟨trivial, p.type.toJson_exact, trivial,
    attributesToJson_exact p.customAttributes (floatFree_flatMap h p hp), trivial⟩

theorem FieldDeclaration.toFields_exact (d : FieldDeclaration) (h : FloatFree d.leaves) :
    ExactFields d.toFields := by
  obtain ⟨hi, ha⟩ := floatFree_append.1 h
  exact ⟨trivial, exact_word d.attributes.bits, d.type.toJson_exact,
    exprOptionToJson_exact d.init hi, attributesToJson_exact d.customAttributes ha, trivial⟩

theorem MethodDeclaration.toFields_exact (d : MethodDeclaration) (h : FloatFree d.leaves) :
    ExactFields d.toFields := by
  obtain ⟨hp, h⟩ := floatFree_append.1 h
  obtain ⟨hr, h⟩ := floatFree_append.1 h
  obtain ⟨hs, ha⟩ := floatFree_append.1 h
  exact ⟨trivial, exact_word d.attributes.bits, parametersToJson_exact d.parameters hp,
    typeOption_exact d.returnType, attributesToJson_exact d.returnAttributes hr,
    stmtsToJson_exact d.statements hs, typesToJson_exact d.implementationTypes,
    typeOption_exact d.privateImplementationType, attributesToJson_exact d.customAttributes ha,
    trivial⟩

theorem ConstructorDeclaration.toFields_exact (d : ConstructorDeclaration)
    (h : FloatFree d.leaves) : ExactFields d.toFields := by
  obtain ⟨hp, h⟩ := floatFree_append.1 h
  obtain ⟨hs, h⟩ := floatFree_append.1 h
  obtain ⟨hb, h⟩ := floatFree_append.1 h
  obtain ⟨hc, ha⟩ := floatFree_append.1 h
  exact ⟨exact_word d.attributes.bits, parametersToJson_exact d.parameters hp,
    stmtsToJson_exact d.statements hs, exprsToJson_exact d.baseArguments hb,
    exprsToJson_exact d.chainedArguments hc, attributesToJson_exact d.customAttributes ha, trivial⟩

theorem PropertyDeclaration.toFields_exact (d : PropertyDeclaration) (h : FloatFree d.leaves) :
    ExactFields d.toFields := by
  obtain ⟨hp, h⟩ := floatFree_append.1 h
  obtain ⟨hg, h⟩ := floatFree_append.1 h
  obtain ⟨hs, ha⟩ := floatFree_append.1 h
  exact ⟨trivial, exact_word d.attributes.bits, d.type.toJson_exact,
    parametersToJson_exact d.parameters hp, trivial, trivial, stmtsToJson_exact d.getStatements hg,
    stmtsToJson_exact d.setStatements hs, typesToJson_exact d.implementationTypes,
    typeOption_exact d.privateImplementationType, attributesToJson_exact d.customAttributes ha,
    trivial⟩

theorem EventDeclaration.toFields_exact (d : EventDeclaration) (h : FloatFree d.leaves) :
    ExactFields d.toFields :=
  ⟨trivial, exact_word d.attributes.bits, d.type.toJson_exact,
    typesToJson_exact d.implementationTypes, typeOption_exact d.privateImplementationType,
    attributesToJson_exact d.customAttributes h, trivial⟩

theorem TypeKind.toJson_exact (kind : TypeKind) (h : FloatFree kind.leaves) :
    kind.toJson.Exact := by
  cases kind with
  | delegateType parameters returnType =>
      exact ⟨trivial, parametersToJson_exact parameters h, typeOption_exact returnType, trivial⟩
  | _ => exact ⟨trivial, trivial⟩

mutual

theorem Member.toJson_exact : (m : Member) → FloatFree m.leaves → m.toJson.Exact
  | ⟨form, source⟩, h => nodeToJson_exact (form.toFields_exact h) source

theorem MemberForm.toFields_exact : (form : MemberForm) → FloatFree form.leaves →
    ExactFields form.toFields.2
  | .unrecognized _, _ => trivial
  | .field d, h => d.toFields_exact h
  | .method d, h => d.toFields_exact h
  | .entryPoint d, h => d.toFields_exact h
  | .constructor d, h => d.toFields_exact h
  | .property d, h => d.toFields_exact h
  | .event d, h => d.toFields_exact h
  | .snippet _ pragma, _ => ⟨trivial, exact_option LinePragma.toJson_exact pragma, trivial⟩
  | .nestedType d, h => d.toFields_exact h

theorem TypeDeclaration.toFields_exact : (d : TypeDeclaration) → FloatFree d.leaves →
    ExactFields d.toFields
  | ⟨_, kind, attributes, baseTypes, members, customAttributes, source⟩, h => by
      obtain ⟨hk, h⟩ := floatFree_append.1 h
      obtain ⟨hm, ha⟩ := floatFree_append.1 h
      exact ⟨trivial, kind.toJson_exact hk, exact_word attributes.bits, typesToJson_exact baseTypes,
        membersToJson_exact members hm, attributesToJson_exact customAttributes ha,
        sourceField_exact source⟩

theorem membersToJson_exact : (ms : List Member) → FloatFree (membersLeaves ms) →
    ExactItems (membersToJson ms)
  | [], _ => trivial
  | m :: ms, h => by
      obtain ⟨hm, hms⟩ := floatFree_append.1 h
      exact ⟨m.toJson_exact hm, membersToJson_exact ms hms⟩

end

theorem UnitSnippet.toJson_exact (s : UnitSnippet) : s.toJson.Exact :=
  ⟨trivial, exact_option LinePragma.toJson_exact s.pragma, trivial⟩

theorem CompileUnit.toJson_exact (u : CompileUnit) (h : FloatFree u.leaves) : u.toJson.Exact := by
  obtain ⟨hn, ha⟩ := floatFree_append.1 h
  have hnamespaces : ExactItems (u.namespaces.map (·.toJson)) := by
    refine exactItems_map u.namespaces fun n hmem => ?_
    have htypes := exactItems_map n.types fun d hd =>
      show d.toJson.Exact from
        d.toFields_exact (floatFree_flatMap (floatFree_flatMap hn n hmem) d hd)
    exact ⟨trivial, strings_exact n.imports, htypes, sourceField_exact n.source⟩
  exact ⟨hnamespaces, strings_exact u.referencedAssemblies,
    attributesToJson_exact u.assemblyAttributes ha, exact_option strings_exact u.definedSymbols,
    exact_option UnitSnippet.toJson_exact u.snippet, trivial⟩

end CodeTree

end MiddleEnd
