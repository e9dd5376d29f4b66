/-
  Dotted names. A name is cut at its dots when code is lowered, put together again when a type is
  looked up, and cut at its last dot to find the type. The three agree. What a name is lowered to
  spells that name, whatever dots there are in it (`dottedName?_qualify`), and can be had by cutting
  off the name behind the last dot again and again (`qualify_lastDot`). A namespace and a name
  without dots are taken apart where they were joined (`splitQualified_fullName`). So the name of a
  type resolves to the first type of the same namespace and name (`resolveType_of_fullName`).
-/
import MiddleEnd.Lowering.Name
import MiddleEnd.Pass.Binding
import MiddleEnd.Proofs.Sample
import MiddleEnd.Proofs.Text.Split

namespace MiddleEnd

/-! ## Chains of names -/

mutual

/-- The innermost name of a chain of qualified names, and the names above it from the inside out. -/
def Expr.chain? : Expr → Option (String × List String)
  | ⟨form, _, _⟩ => form.chain?

def ExprForm.chain? : ExprForm → Option (String × List String)
  | .identifier name => some (name, [])
  | .qualified qualifier name =>
    qualifier.chain?.map fun (innermost, names) => (innermost, names ++ [name])
  | _ => none

end

namespace Lowering

theorem dottedName?_qualifyFrom (pieces : List (List Char)) {head : Expr} {name : String}
    (h : head.dottedName? = some name) :
    (qualifyFrom head pieces).dottedName? =
      some (String.ofList (name.toList ++ pieces.flatMap fun p => '.' :: p)) := by
  induction pieces generalizing head name with
  | nil =>
      rw [List.flatMap_nil, List.append_nil, String.ofList_toList]
      exact h
  | cons piece pieces ih =>
      have hnext : (ExprForm.qualified head (String.ofList piece)).expr.dottedName? =
          some (name ++ "." ++ String.ofList piece) := by
        rw [ExprForm.expr, Expr.dottedName?, ExprForm.dottedName?, h]
      refine (ih hnext).trans ?_
      simp

theorem chain?_qualifyFrom (pieces : List (List Char)) {head : Expr} {innermost : String}
    {names : List String} (h : head.chain? = some (innermost, names)) :
    (qualifyFrom head pieces).chain? = some (innermost, names ++ pieces.map String.ofList) := by
  induction pieces generalizing head names with
  | nil =>
      rw [List.map_nil, List.append_nil]
      exact h
  | cons piece pieces ih =>
      have hnext : (ExprForm.qualified head (String.ofList piece)).expr.chain? =
          some (innermost, names ++ [String.ofList piece]) := by
        rw [ExprForm.expr, Expr.chain?, ExprForm.chain?, h]
        rfl
      refine (ih hnext).trans ?_
      simp

/-- A name is lowered to the chain of its pieces; a dot at the start goes with the first of them. -/
theorem qualify_eq (dotted : String) :
    ∃ innermost pieces,
      qualify dotted = qualifyFrom (.identifier (String.ofList innermost)) pieces ∧
      '.' ∉ innermost.tail ∧ (∀ p ∈ pieces, '.' ∉ p) ∧
      dotted.toList = innermost ++ pieces.flatMap fun p => '.' :: p := by
  obtain ⟨piece, rest, hp, hpiece, hrest, hcs⟩ := Text.exists_pieces '.' dotted.toList
  rw [qualify, hp]
  rcases piece with _ | ⟨c, piece⟩
  · rcases rest with _ | ⟨first, rest⟩
    · exact ⟨[], [], rfl, by simp, hrest, hcs⟩
    · obtain ⟨hfirst, hrest⟩ := List.forall_mem_cons.mp hrest
      exact ⟨'.' :: first, rest, rfl, hfirst, hrest, by rw [hcs]; simp⟩
  · exact ⟨c :: piece, rest, rfl, fun h => hpiece (List.mem_cons_of_mem c h), hrest, hcs⟩

theorem dottedName?_qualify (dotted : String) : (qualify dotted).dottedName? = some dotted := by
  obtain ⟨innermost, pieces, hq, -, -, hcs⟩ := qualify_eq dotted
  rw [hq, dottedName?_qualifyFrom pieces rfl, String.toList_ofList, ← hcs, String.ofList_toList]

theorem chain?_qualify (dotted : String) :
    ∃ innermost names, (qualify dotted).chain? = some (innermost, names) ∧
      '.' ∉ innermost.toList.tail ∧ ∀ name ∈ names, '.' ∉ name.toList := by
  obtain ⟨innermost, pieces, hq, hinner, hpieces, -⟩ := qualify_eq dotted
  refine ⟨String.ofList innermost, pieces.map String.ofList, ?_, ?_, ?_⟩
  · rw [hq, chain?_qualifyFrom pieces rfl, List.nil_append]
  · rwa [String.toList_ofList]
  · simpa using hpieces

end Lowering

/-! ## The last dot -/

theorem splitLastDot_eq_none {cs : List Char} (h : '.' ∉ cs) : splitLastDot cs = none := by
  induction cs with
  | nil => rfl
  | cons c cs ih =>
      obtain ⟨hc, hcs⟩ := not_or.mp (mt List.mem_cons.mpr h)
      rw [splitLastDot, ih hcs]
      exact if_neg (Ne.symm hc)

theorem splitLastDot_append (before : List Char) {behind : List Char} (h : '.' ∉ behind) :
    splitLastDot (before ++ '.' :: behind) = some (before, behind) := by
  induction before with
  | nil =>
      rw [List.nil_append, splitLastDot, splitLastDot_eq_none h]
      exact if_pos rfl
  | cons c before ih => rw [List.cons_append, splitLastDot, ih]

theorem not_mem_of_splitLastDot_eq_none {cs : List Char} (h : splitLastDot cs = none) :
    '.' ∉ cs := by
  induction cs with
  | nil => exact List.not_mem_nil
  | cons c cs ih =>
      rw [splitLastDot] at h
      cases hcs : splitLastDot cs with
      | some parts =>
          rw [hcs] at h
          cases h
      | none =>
          rw [hcs] at h
          have hc : c ≠ '.' := by
            rintro rfl
            cases h
          exact fun hmem => (List.mem_cons.mp hmem).elim (fun heq => hc heq.symm) (ih hcs)

theorem eq_of_splitLastDot_eq_some {cs before behind : List Char}
    (h : splitLastDot cs = some (before, behind)) :
    cs = before ++ '.' :: behind ∧ '.' ∉ behind := by
  induction cs generalizing before with
  | nil => cases h
  | cons c cs ih =>
      rw [splitLastDot] at h
      cases hcs : splitLastDot cs with
      | some parts =>
          rw [hcs] at h
          cases h
          obtain ⟨heq, hbehind⟩ := ih hcs
          exact ⟨congrArg (c :: ·) heq, hbehind⟩
      | none =>
          rw [hcs] at h
          by_cases hc : c = '.'
          · subst hc
            cases h
            exact ⟨rfl, not_mem_of_splitLastDot_eq_none hcs⟩
          · dsimp only at h
            rw [if_neg hc] at h
            cases h

namespace Lowering

theorem qualifyFrom_concat (head : Expr) (pieces : List (List Char)) (piece : List Char) :
    qualifyFrom head (pieces ++ [piece]) =
      (ExprForm.qualified (qualifyFrom head pieces) (String.ofList piece)).expr := by
  rw [qualifyFrom, List.foldl_append]
  rfl

/-- Cutting a name at all its dots is cutting it at the last one and the rest in the same way, as
    long as something is in front of that dot. -/
theorem qualify_lastDot (dotted : String) :
    (∀ before behind, splitLastDot dotted.toList = some (before, behind) → before ≠ [] →
      qualify dotted =
        (ExprForm.qualified (qualify (String.ofList before)) (String.ofList behind)).expr) ∧
    ((∀ before behind, splitLastDot dotted.toList = some (before, behind) → before = []) →
      qualify dotted = .identifier dotted) := by
  constructor
  · intro before behind hsplit hne
    obtain ⟨hdotted, hbehind⟩ := eq_of_splitLastDot_eq_some hsplit
    obtain ⟨piece, rest, hpieces, -, -, hbefore⟩ := Text.exists_pieces '.' before
    have hall : Text.pieces '.' dotted.toList = piece :: (rest ++ [behind]) := by
      rw [Text.pieces_eq_splitOn] at hpieces ⊢
      rw [hdotted, List.splitOn_append_cons_self, hpieces, List.splitOn_eq_singleton hbehind,
        List.cons_append]
    rw [qualify, qualify, String.toList_ofList, hpieces, hall]
    rcases piece with _ | ⟨c, piece⟩
    · rcases rest with _ | ⟨first, rest⟩
      · exact absurd hbefore hne
      · exact qualifyFrom_concat _ rest behind
    · exact qualifyFrom_concat _ rest behind
  · intro hfirst
    cases hsplit : splitLastDot dotted.toList with
    | none =>
        have hall : Text.pieces '.' dotted.toList = [dotted.toList] := by
          rw [Text.pieces_eq_splitOn]
          exact List.splitOn_eq_singleton (not_mem_of_splitLastDot_eq_none hsplit)
        rw [qualify, hall]
        cases hlist : dotted.toList with
        | nil => exact congrArg Expr.identifier (String.toList_inj.mp hlist.symm)
        | cons c cs =>
            show Expr.identifier (String.ofList (c :: cs)) = Expr.identifier dotted
            rw [← hlist, String.ofList_toList]
    | some parts =>
        obtain ⟨before, behind⟩ := parts
        obtain rfl := hfirst before behind hsplit
        obtain ⟨hdotted, hbehind⟩ := eq_of_splitLastDot_eq_some hsplit
        have hall : Text.pieces '.' dotted.toList = [[], behind] := by
          rw [Text.pieces_eq_splitOn, hdotted, List.splitOn_append_cons_self,
            List.splitOn_eq_singleton hbehind]
          rfl
        rw [qualify, hall]
        refine congrArg Expr.identifier ?_
        rw [← String.toList_inj, String.toList_ofList, hdotted]
        rfl

end Lowering

/-- A namespace may have dots, and may be empty. -/
theorem splitQualified_fullName {t : TypeNode} (h : '.' ∉ t.name.toList) :
    splitQualified t.fullName = (t.namespaceName, t.name) := by
  unfold splitQualified TypeNode.fullName
  by_cases hns : t.namespaceName = ""
  · rw [if_pos hns, splitLastDot_eq_none h, hns]
  · have hlist : (t.namespaceName ++ "." ++ t.name).toList =
        t.namespaceName.toList ++ '.' :: t.name.toList := by
      simp
    rw [if_neg hns, hlist, splitLastDot_append _ h]
    simp

/-! ## The first type of a name -/

/-- The type is not nested, and has that namespace and name. -/
def TypeNode.Answers (ns name : String) (t : TypeNode) : Prop :=
  t.declaringType = none ∧ t.namespaceName = ns ∧ t.name = name

theorem TypeNode.answers_iff {ns name : String} {t : TypeNode} :
    (t.declaringType.isNone && t.namespaceName == ns && t.name == name) = true ↔
      t.Answers ns name := by
  simp [Answers, and_assoc]

namespace Universe

variable {u : Universe} {ns name : String}

/-- Of all types that answer to the name, `first` comes first, module by module, and `id` is made up
    of its module and its position there. -/
def FirstOf (u : Universe) (ns name : String) (id : TypeId) (first : TypeNode) : Prop :=
  ∃ before m behind earlier later, u.modules.toList = before ++ m :: behind ∧
    m.types.toList = earlier ++ first :: later ∧ first.Answers ns name ∧
    (∀ m' ∈ before, ∀ t ∈ m'.types.toList, ¬ t.Answers ns name) ∧
    (∀ t ∈ earlier, ¬ t.Answers ns name) ∧ id = ⟨m.id, Index.ofNat earlier.length⟩

/-- Every module stands at its own position, and positions in it do not wrap around. -/
def Indexed (u : Universe) : Prop :=
  ∀ (i : Nat) (m : Module), u.modules.toList[i]? = some m →
    m.id = ⟨i⟩ ∧ m.types.size ≤ UInt32.size

end Universe

/-- Only the first entry with the property is found. -/
theorem find?_zipIdx {α : Type} {p : α → Bool} {xs : List α} {base i : Nat} {x : α}
    (h : (xs.zipIdx base).find? (fun entry => p entry.1) = some (x, i)) :
    ∃ earlier later, xs = earlier ++ x :: later ∧ p x = true ∧ (∀ y ∈ earlier, p y = false) ∧
      i = base + earlier.length := by
  induction xs generalizing base with
  | nil => cases h
  | cons y xs ih =>
      rw [List.zipIdx_cons, List.find?_cons] at h
      cases hy : p y with
      | true =>
          simp only [hy] at h
          cases h
          exact ⟨[], xs, rfl, hy, by simp, rfl⟩
      | false =>
          simp only [hy] at h
          obtain ⟨earlier, later, rfl, hx, hearlier, rfl⟩ := ih h
          refine ⟨y :: earlier, later, rfl, hx, List.forall_mem_cons.mpr ⟨hy, hearlier⟩, ?_⟩
          rw [List.length_cons]
          omega

namespace Module

variable {m : Module} {ns name : String}

theorem findType?_eq (m : Module) (ns name : String) :
    m.findType? ns name =
      (m.types.toList.zipIdx.find? fun entry =>
        entry.1.declaringType.isNone && entry.1.namespaceName == ns && entry.1.name == name).map
          fun entry => ⟨m.id, Index.ofNat entry.2⟩ := by
  unfold findType? Arena.enumerate
  rw [List.find?_map, Option.map_map]
  rfl

/-- The type that is found is the first that answers. -/
theorem first_of_findType? {id : TypeId} (h : m.findType? ns name = some id) :
    ∃ earlier first later, m.types.toList = earlier ++ first :: later ∧ first.Answers ns name ∧
      (∀ t ∈ earlier, ¬ t.Answers ns name) ∧ id = ⟨m.id, Index.ofNat earlier.length⟩ := by
  rw [findType?_eq] at h
  obtain ⟨⟨first, i⟩, hfind, rfl⟩ := Option.map_eq_some_iff.mp h
  obtain ⟨earlier, later, htypes, hfirst, hearlier, rfl⟩ :=
    find?_zipIdx (p := fun t : TypeNode =>
      t.declaringType.isNone && t.namespaceName == ns && t.name == name) hfind
  refine ⟨earlier, first, later, htypes, TypeNode.answers_iff.mp hfirst, fun t ht hanswers => ?_,
    ?_⟩
  · have hmiss := hearlier t ht
    rw [TypeNode.answers_iff.mpr hanswers] at hmiss
    cases hmiss
  · rw [Nat.zero_add]

/-- Nothing is found only where nothing answers. -/
theorem not_answers_of_findType? (h : m.findType? ns name = none) :
    ∀ t ∈ m.types.toList, ¬ t.Answers ns name := by
  intro t ht hanswers
  rw [findType?_eq, Option.map_eq_none_iff, List.find?_eq_none] at h
  obtain ⟨i, hi⟩ := List.mem_iff_getElem?.mp ht
  exact h (t, i) (List.mem_zipIdx_iff_getElem?.mpr hi) (TypeNode.answers_iff.mpr hanswers)

end Module

namespace Universe

variable {u : Universe} {ns name : String}

/-- Where a type answers to a dotted name, the first one that does is found. -/
theorem findType?_of_answers {qualified : String} (hq : splitQualified qualified = (ns, name))
    {m : Module} {t : TypeNode} (hm : m ∈ u.modules.toList) (ht : t ∈ m.types.toList)
    (hanswers : t.Answers ns name) :
    ∃ id first, u.findType? qualified = some id ∧ u.FirstOf ns name id first := by
  have hfind : u.findType? qualified =
      u.modules.toList.findSome? fun m => m.findType? ns name := by
    rw [findType?, hq]
  rcases hsome : u.modules.toList.findSome? fun m => m.findType? ns name with _ | id
  · have hnone := List.findSome?_eq_none_iff.mp hsome m hm
    exact absurd hanswers (Module.not_answers_of_findType? hnone t ht)
  · obtain ⟨before, m, behind, hmodules, hid, hbefore⟩ := List.findSome?_eq_some_iff.mp hsome
    obtain ⟨earlier, first, later, htypes, hfirst, hearlier, rfl⟩ := Module.first_of_findType? hid
    refine ⟨_, first, hfind.trans hsome, before, m, behind, earlier, later, hmodules, htypes,
      hfirst, fun m' hm' => ?_, hearlier, rfl⟩
    exact Module.not_answers_of_findType? (hbefore m' hm')

/-- Where positions are what they seem, the first type is found under its position. -/
theorem FirstOf.type? {id : TypeId} {first : TypeNode} (h : u.FirstOf ns name id first)
    (hu : u.Indexed) : u.type? id = some first := by
  obtain ⟨before, m, behind, earlier, later, hmodules, htypes, -, -, -, rfl⟩ := h
  have hmodule : u.modules.toList[before.length]? = some m := by
    rw [hmodules]
    simp
  obtain ⟨hid, hsize⟩ := hu _ m hmodule
  have hat : m.types.toList[earlier.length]? = some first := by
    rw [htypes]
    simp
  have hwrap : Index.wrap earlier.length = earlier.length := by
    refine Nat.mod_eq_of_lt (Nat.lt_of_lt_of_le ?_ hsize)
    obtain ⟨hlt, -⟩ := List.getElem?_eq_some_iff.mp hat
    rwa [Arena.toList, Array.length_toList] at hlt
  have hfound : u.module? m.id = some m := by
    rw [hid]
    exact (Array.getElem?_toList).symm.trans hmodule
  simp only [Universe.type?, hfound, Option.bind_eq_bind, Option.bind_some, Module.type?, if_pos]
  show m.types.items[Index.wrap earlier.length]? = some first
  rw [hwrap, ← Array.getElem?_toList]
  exact hat

end Universe

/-- A lowered name spells the name that it was made from. Its names have no dots, but for one that
    may start the innermost. The name of a type that is not nested and has no dot in its own name
    resolves to the first type of its namespace and name. -/
theorem resolveType_of_fullName :
    (∀ dotted : String, (Lowering.qualify dotted).dottedName? = some dotted ∧
      ∃ innermost names, (Lowering.qualify dotted).chain? = some (innermost, names) ∧
        '.' ∉ innermost.toList.tail ∧ ∀ name ∈ names, '.' ∉ name.toList) ∧
    ∀ (u : Universe) (m : Module) (t : TypeNode) (rank : UInt32), m ∈ u.modules.toList →
      t ∈ m.types.toList → t.declaringType = none → '.' ∉ t.name.toList →
      ∃ id first, u.resolveType (Lowering.typeRef ⟨t.fullName, none, rank⟩) = .bound id ∧
        u.FirstOf t.namespaceName t.name id first ∧ (u.Indexed → u.type? id = some first) := by
  refine ⟨fun dotted => ⟨Lowering.dottedName?_qualify dotted, Lowering.chain?_qualify dotted⟩, ?_⟩
  intro u m t rank hm ht htop hname
  obtain ⟨id, first, hid, hfirst⟩ :=
    Universe.findType?_of_answers (splitQualified_fullName hname) hm ht ⟨htop, rfl, rfl⟩
  refine ⟨id, first, ?_, hfirst, hfirst.type?⟩
  rw [Lowering.typeRef, Lowering.elementRef, Universe.resolveType]
  simp only [Lowering.dottedName?_qualify, Option.bind_some, hid]

/-- A module with another guard type. -/
def Wallet.spareModule : Module where
  id := ⟨1⟩
  name := "spares"
  types := ⟨#[Wallet.walletNode, Wallet.guardNode]⟩

/-- The guard type is there twice. -/
def Wallet.typesWithSpares : Universe := ⟨(Wallet.types.modules.push Wallet.spareModule).1⟩

theorem Wallet.indexed_typesWithSpares : Wallet.typesWithSpares.Indexed := by
  rintro (_ | _ | i) m h
  · cases h
    exact ⟨rfl, by decide⟩
  · cases h
    exact ⟨rfl, by decide⟩
  · cases h

/-- The name of the guard type in the second module resolves to the one in the first. -/
theorem resolveType_of_spareGuard :
    Wallet.spareModule ∈ Wallet.typesWithSpares.modules.toList ∧
    Wallet.guardNode ∈ Wallet.spareModule.types.toList ∧ Wallet.guardNode.declaringType = none ∧
    '.' ∉ Wallet.guardNode.name.toList ∧
    Wallet.typesWithSpares.findType? Wallet.guardNode.fullName = some Wallet.guardId ∧
    ∃ id first,
      Wallet.typesWithSpares.resolveType (Lowering.typeRef ⟨Wallet.guardNode.fullName, none, 0⟩) =
        .bound id ∧
      Wallet.typesWithSpares.FirstOf "Microsoft.Contracts" "Guard" id first ∧
      Wallet.typesWithSpares.type? id = some first := by
  have hm : Wallet.spareModule ∈ Wallet.typesWithSpares.modules.toList :=
    List.mem_cons_of_mem _ List.mem_cons_self
  have ht : Wallet.guardNode ∈ Wallet.spareModule.types.toList :=
    List.mem_cons_of_mem _ List.mem_cons_self
  obtain ⟨id, first, hid, hfirst, htype⟩ := resolveType_of_fullName.2 _ _ _ 0 hm ht rfl (by decide)
  exact ⟨hm, ht, rfl, by decide, by decide, id, first, hid, hfirst,
    htype Wallet.indexed_typesWithSpares⟩

end MiddleEnd
