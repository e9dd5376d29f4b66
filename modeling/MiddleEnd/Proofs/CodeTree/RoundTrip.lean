/-
  Writing a code tree and reading it again. A unit without floating-point constants, whose nested
  types have no sources of their own, comes back as its rereading if its written form is not nested
  too deep, and is refused otherwise (`read_write_eq`). So it comes back as it was if in addition no
  node of unknown shape is of a bare kind (`read_write`).

  A unit that was read from a text always meets the condition on nested types, but it need not meet
  the others. A node under a bare kind is of unknown shape if one of its fields cannot be read; the
  written form drops that field, and what is left can be read. The known shape has its fields
  written out, so it may also be nested deeper than the text was. Both ways of changing are
  described exactly (`read_write_of_read`).
-/
import MiddleEnd.Proofs.CodeTree.Reading

namespace MiddleEnd.CodeTree

namespace CompileUnit

theorem read_write_eq (u : CompileUnit) (hfloat : FloatFree u.leaves)
    (hnested : SourceFree u.nestedTypes) :
    read u.write = Decode.within u.toJson.height Decode.depthLimit (rereading.onUnit u) :=
  (Reader.reads_unit u hfloat hnested).text (u.toJson_exact hfloat)

/-- Reading gives back what was written. -/
theorem read_write (u : CompileUnit) (hfloat : ∀ leaf ∈ u.leaves, leaf.isFloat = false)
    (hnested : ∀ d ∈ u.nestedTypes, d.source = none)
    (hkinds : ∀ leaf ∈ u.leaves, leaf.Settled)
    (hdepth : u.toJson.height ≤ Decode.depthLimit) : read u.write = .ok u := by
  have hsame : rereading.onUnit u = u := (onUnit_rereading_iff u).2 hkinds
  rw [read_write_eq u hfloat hnested, hsame]
  exact Decode.within_of_le hdepth u

end CompileUnit

/-- A nested type, whose member has a source with characters that are escaped. -/
def alarm : Member where
  form := .nestedType
    { name := "Alarm"
      kind := .delegateType
        [{ name := "at", type := .named "Int64", direction := .reference }] none }
  source := some ⟨⟨none, 7, "delegate\n\t…\x00"⟩, 18446744073709551615, 3⟩

/-- A method with numbers at the end of their range, and with nodes of unknown shape as a statement
    and as an operand. -/
def openCellar : MethodDeclaration where
  name := "Open"
  statements := [
    (StmtForm.unrecognized "Yield").node,
    (StmtForm.iteration none
      (some (ExprForm.binary (ExprForm.unrecognized "Lambda").node .lessThan
        (ExprForm.primitive (.int64 (-9223372036854775808))).node).node)
      (some (StmtForm.comment "").node)
      [(StmtForm.tryCatchFinally []
        [⟨"e", none, [(StmtForm.methodReturn none).node]⟩] []).node]).node,
    (StmtForm.expression (ExprForm.primitive (.decimal ⟨-150, 2⟩)).node).node]

/-- Nodes of unknown shape also stand among the members and in an attribute. -/
def cellar : CompileUnit where
  namespaces := [
    { name := "Bank\\\"Vault\"", imports := ["System", ""],
      types := [
        { name := "Cellar", kind := .classType, attributes := ⟨4294967295⟩,
          baseTypes := [.arrayOf (.named "Bank.Room") 2],
          members := [(MemberForm.unrecognized "Operator").node, alarm,
            (MemberForm.method openCellar).node] }] }]
  assemblyAttributes := [⟨"Sealed", [⟨some "", (ExprForm.unrecognized "").node⟩]⟩]
  definedSymbols := some []

theorem read_write_cellar :
    (∀ leaf ∈ cellar.leaves, leaf.isFloat = false) ∧ (∀ d ∈ cellar.nestedTypes, d.source = none) ∧
      (∀ leaf ∈ cellar.leaves, leaf.Settled) ∧ cellar.toJson.height ≤ Decode.depthLimit ∧
      CompileUnit.read cellar.write = .ok cellar := by
  have hfloat : ∀ leaf ∈ cellar.leaves, leaf.isFloat = false := by decide
  have hnested : ∀ d ∈ cellar.nestedTypes, d.source = none := by decide
  have hkinds : ∀ leaf ∈ cellar.leaves, leaf.Settled := by decide
  have hdepth : cellar.toJson.height ≤ Decode.depthLimit := by decide +kernel
  exact ⟨hfloat, hnested, hkinds, hdepth,
    CompileUnit.read_write cellar hfloat hnested hkinds hdepth⟩

/-! ## Units that were read -/

/-- A unit with a single statement. -/
def statementUnit (form : StmtForm) : CompileUnit where
  namespaces := [
    { name := "N",
      types := [
        { name := "T", kind := .classType,
          members := [(MemberForm.method { name := "M", statements := [form.node] }).node] }] }]

/-- A comment whose text is a number. -/
def spoiledComment : Json :=
  .object [("namespaces", .array [.object [("name", .string "N"), ("types", .array [.object [
    ("name", .string "T"), ("type_kind", .object [("kind", .string "Class")]),
    ("members", .array [.object [("kind", .string "Method"), ("name", .string "M"),
      ("statements", .array [.object [("kind", .string "Comment"), ("text", .ofNat 3)]])]])]])]])]

/-- What it is read as: the comment is of unknown shape. -/
def spoiledUnit : CompileUnit := statementUnit (.unrecognized "Comment")

theorem read_spoiledComment : CompileUnit.read spoiledComment.pretty = .ok spoiledUnit := by
  have hexact : spoiledComment.Exact := by
    simp [spoiledComment, Json.Exact, Json.ExactItems, Json.ExactFields, Json.ofNat,
      JsonNumber.IsWord]
  rw [CompileUnit.read, Decode.text, Draft.scan_pretty hexact]
  rfl

theorem floatFree_spoiledUnit : FloatFree spoiledUnit.leaves := by decide

/-- What comes back of a unit that was read, and when that is the unit itself. -/
theorem CompileUnit.read_write_of_read {t : String} {u : CompileUnit} (h : read t = .ok u)
    (hfloat : ∀ leaf ∈ u.leaves, leaf.isFloat = false) :
    (read u.write =
      if u.toJson.height ≤ Decode.depthLimit then .ok (rereading.onUnit u) else .error .malformed) ∧
    (read u.write = .ok u ↔
      u.toJson.height ≤ Decode.depthLimit ∧ ∀ leaf ∈ u.leaves, leaf.Settled) := by
  have hread := read_write_eq u hfloat (nestedTypes_of_read h)
  refine ⟨hread, ?_⟩
  rw [hread, ← onUnit_rereading_iff]
  unfold Decode.within
  split
  case isTrue hdepth => simp [hdepth]
  case isFalse hdepth => simp [hdepth]

theorem read_write_of_spoiledComment :
    CompileUnit.read spoiledComment.pretty = .ok spoiledUnit ∧ FloatFree spoiledUnit.leaves ∧
      (CompileUnit.read spoiledUnit.write =
        if spoiledUnit.toJson.height ≤ Decode.depthLimit then .ok (rereading.onUnit spoiledUnit)
        else .error .malformed) ∧
      (CompileUnit.read spoiledUnit.write = .ok spoiledUnit ↔
        spoiledUnit.toJson.height ≤ Decode.depthLimit ∧
          ∀ leaf ∈ spoiledUnit.leaves, leaf.Settled) :=
  ⟨read_spoiledComment, floatFree_spoiledUnit,
    CompileUnit.read_write_of_read read_spoiledComment floatFree_spoiledUnit⟩

/-- The unit does not come back as it was: its statement has become an empty comment. -/
theorem read_write_spoiledUnit :
    CompileUnit.read spoiledComment.pretty = .ok spoiledUnit ∧ FloatFree spoiledUnit.leaves ∧
      CompileUnit.read spoiledUnit.write = .ok (statementUnit (.comment "")) ∧
      statementUnit (.comment "") ≠ spoiledUnit := by
  have hread := CompileUnit.read_write_eq spoiledUnit floatFree_spoiledUnit (by decide)
  have hdepth : spoiledUnit.toJson.height ≤ Decode.depthLimit := by decide +kernel
  refine ⟨read_spoiledComment, floatFree_spoiledUnit, ?_, fun h => ?_⟩
  · rw [hread, Decode.within_of_le hdepth]
    rfl
  · have hleaves := congrArg (fun u => u.leaves.length) h
    exact absurd hleaves (by decide)

end MiddleEnd.CodeTree
