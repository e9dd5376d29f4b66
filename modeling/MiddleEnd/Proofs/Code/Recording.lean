/-
  Editors and visitors walk alike. Let an editor and a visitor do something at each member and each
  call, and then walk on as if nothing was overridden. They go through code in the same order: the
  editor gives back the code as it was, and leaves the state that the visitor leaves
  (`watching_editBlock`). `retraces` says this of every class of code, and it is closed under the
  editor, so each form is looked at once. If what they do is to keep a record, both records are the
  members and calls among the expressions of the code, in their order (`recording_editBlock`).
-/
import MiddleEnd.Proofs.Code.Editing
import MiddleEnd.Proofs.Code.Visiting

namespace MiddleEnd

variable {σ α β : Type}

/-! ## Walks over the same code -/

/-- The node comes back as it was, and the state behind it is the one that the action leaves. -/
def Retraced (a : α) (action : StateM σ Unit) (s : σ) (a' : α) (s' : σ) : Prop :=
  a' = a ∧ s' = (action s).2

namespace Retraced

variable {action next : StateM σ Unit} {a a' : α} {s s₁ s' : σ}

theorem refl (a : α) (s : σ) : Retraced a (pure ()) s a s := ⟨rfl, rfl⟩

theorem map (f : α → β) (h : Retraced a action s a' s') : Retraced (f a) action s (f a') s' := by
  obtain ⟨rfl, rfl⟩ := h
  exact ⟨rfl, rfl⟩

theorem ap {f f' : α → β} (h : Retraced f action s f' s₁) (ha : Retraced a next s₁ a' s') :
    Retraced (f a) (action >>= fun _ => next) s (f' a') s' := by
  obtain ⟨rfl, rfl⟩ := h
  obtain ⟨rfl, rfl⟩ := ha
  exact ⟨rfl, rfl⟩

end Retraced

def retraces (visitor : Visitor σ) : EditRelation σ where
  expr e := Retraced e (visitor.visitExpr e)
  walked e := Retraced e (visitor.walkExpr e.form)
  option e := Retraced e (visitor.visitOption e)
  exprs es := Retraced es (visitor.visitExprs es)
  stmt st := Retraced st (visitor.visitStmt st)
  labeled st := Retraced st (visitor.visitLabeled st)
  stmts ss := Retraced ss (visitor.visitStmts ss)
  catchers cs := Retraced cs (visitor.visitCatchers cs)
  last b := Retraced b (visitor.visitLast b)
  block b := Retraced b (visitor.visitBlock b)

section

variable (member : Option Expr → MemberRef → StateM σ Unit)
  (call : Expr → List Expr → StateM σ Unit)

/-- Does something at each member and each call before it walks on. -/
def Editor.watching : Editor σ where
  member e receiver ref edit := do
    Edit.always (member receiver ref)
    Editor.member {} e receiver ref edit
  call e callee arguments walk := do
    Edit.always (call callee arguments)
    Editor.call {} e callee arguments walk

/-- Does something at each member and each call before it walks on. -/
def Visitor.watching : Visitor σ where
  member receiver ref walk := do
    member receiver ref
    Visitor.member {} receiver ref walk
  call callee arguments walk := do
    call callee arguments
    Visitor.call {} callee arguments walk

theorem Edit.always_run (action : StateM σ α) (s : σ) :
    Edit.always action s = (some (action s).1, (action s).2) := rfl

theorem retraces_closed :
    (retraces (Visitor.watching member call)).Closed (Editor.watching member call) := by
  constructor
  case expr =>
    intro e walk h
    obtain ⟨form, type, source⟩ := e
    exact h
  case member =>
    intro receiver ref type source edit h s
    obtain ⟨receiver', s', run, rfl, rfl⟩ := h (member receiver ref s).2
    refine ⟨_, _, ?_, rfl, rfl⟩
    dsimp only [Editor.watching]
    rw [Edit.bind_run (Edit.always_run _ s), Edit.bind_run run]
    rfl
  case call =>
    intro callee arguments type source walk h s
    obtain ⟨_, s', run, _, _, _, ⟨rfl, rfl⟩, ⟨rfl, rfl⟩, rfl⟩ := h (call callee arguments s).2
    refine ⟨_, _, ?_, rfl, rfl⟩
    dsimp only [Editor.watching]
    rw [Edit.bind_run (Edit.always_run _ s)]
    exact run
  case assignMember =>
    intro receiver ref type targetSource source value editTarget editValue editReceiver ht hv _
    exact AssignmentParts.walk_yields ht hv fun _ _ _ _ _ ht hv =>
      (ht.map fun t v => Stmt.mk (.assignment t v) source).ap hv
  case assign =>
    intro target value source editTarget editValue _ ht hv
    exact AssignmentParts.walk_yields ht hv fun _ _ _ _ _ ht hv =>
      (ht.map fun t v => Stmt.mk (.assignment t v) source).ap hv
  case leaf =>
    intro form type source s h
    exact ⟨rfl, congrArg (fun action => (action s).2) (Visitor.walkExpr_leaf _ h).symm⟩
  case qualified => exact fun h => h.map fun q => Expr.mk (.qualified q _) _ _
  case binary => exact fun hl hr => (hl.map fun l r => Expr.mk (.binary _ l r) _ _).ap hr
  case assignment => exact fun h => h.map fun st => Expr.mk (.assignment st) _ _
  case cast => exact fun h => h.map fun o => Expr.mk (.cast o _) _ _
  case indexer => exact fun ho hs => (ho.map fun o os => Expr.mk (.indexer o os) _ _).ap hs
  case constructArray =>
    exact fun hs hi => (hs.map fun n is => Expr.mk (.constructArray _ n is) _ _).ap hi
  case construct => exact fun h => h.map fun os => Expr.mk (.construct _ os) _ _
  case constructDelegate => exact fun h => h.map fun t => Expr.mk (.constructDelegate _ t _) _ _
  case addressOf => exact fun h => h.map fun o => Expr.mk (.addressOf o) _ _
  case blockExpr => exact fun h => h.map fun b => Expr.mk (.block b) _ _
  case exprsCons | stmtsCons => exact fun h hs => (h.map List.cons).ap hs
  case attachEvent => exact fun he hh => (he.map fun e h => Stmt.mk (.attachEvent e h) _).ap hh
  case removeEvent => exact fun he hh => (he.map fun e h => Stmt.mk (.removeEvent e h) _).ap hh
  case branch =>
    exact fun hc ht hf => ((hc.map fun c t f => Stmt.mk (.branch c t f) _).ap ht).ap hf
  case expression => exact fun h => h.map fun e => Stmt.mk (.expression e) _
  case labeledStmt => exact fun h => h.map fun st => Stmt.mk (.labeled _ st) _
  case loop =>
    exact fun hi ht hn hb =>
      (((hi.map fun i t n b => Stmt.mk (.loop i t n b) _).ap ht).ap hn).ap hb
  case ret => exact fun h => h.map fun v => Stmt.mk (.ret v) _
  case raise => exact fun h => h.map fun v => Stmt.mk (.raise v) _
  case protect =>
    exact fun hb hc hl => ((hb.map fun b cs l => Stmt.mk (.protect b cs l) _).ap hc).ap hl
  case declaration => exact fun h => h.map fun i => Stmt.mk (.declaration _ _ i) _
  case blockStmt => exact fun h => h.map fun b => Stmt.mk (.block b) _
  case optionSome | labeledSome | lastSome => exact fun h => h.map some
  case catchersCons => exact fun hb hc => (hb.map fun b cs => Catcher.mk _ _ b :: cs).ap hc
  case block => exact fun h => h.map fun ss => Block.mk ss _
  case goto | snippet | optionNone | exprsNil | labeledNone | stmtsNil | catchersNil | lastNone =>
    exact .refl _ _

theorem watching_editBlock (b : Block) (s : σ) :
    (Editor.watching member call).editBlock b s =
      (b, ((Visitor.watching member call).visitBlock b s).2) := by
  obtain ⟨hblock, hstate⟩ := (retraces_closed member call).editBlock b s
  exact Prod.ext hblock hstate

end

/-! ## Records -/

/-- What a walk puts on record: a member with its receiver, or a call with its arguments. -/
inductive Entry where
  | member (receiver : Option Expr) (ref : MemberRef)
  | call (callee : Expr) (arguments : List Expr)

/-- Puts an entry behind the record. -/
def Entry.note (entry : Entry) : StateM (List Entry) Unit := modify (· ++ [entry])

def Editor.recording : Editor (List Entry) :=
  .watching (fun receiver ref => (Entry.member receiver ref).note)
    fun callee arguments => (Entry.call callee arguments).note

def Visitor.recording : Visitor (List Entry) :=
  .watching (fun receiver ref => (Entry.member receiver ref).note)
    fun callee arguments => (Entry.call callee arguments).note

/-- The members and calls among all expressions of the block, types apart, in their order. -/
def Block.entries (b : Block) : List Entry :=
  listing (fun receiver ref => [.member receiver ref])
    (fun callee arguments => [.call callee arguments]) (b.exprs false)

theorem Entry.note_appends (entry : Entry) : Visitor.Appends id [entry] entry.note := fun _ => rfl

theorem recording_lists :
    Visitor.recording.Lists id (fun _ => True) (fun receiver ref => [.member receiver ref])
      fun callee arguments => [.call callee arguments] where
  block := fun hw => hw
  stmt := fun hw => hw
  expr := fun hw => hw
  member := fun _ hw => (Entry.note_appends _).seq hw
  call := fun hw => (Entry.note_appends _).seq hw

theorem recording_visitBlock (b : Block) (record : List Entry) :
    (Visitor.recording.visitBlock b record).2 = record ++ b.entries :=
  recording_lists.visitBlock b (fun _ _ => trivial) record

/-- An editor that only keeps a record of members and calls gives back every block as it was, and
    its record is that of a visitor which keeps one: whatever was on it, and then the members and
    calls of the block in their order. -/
theorem recording_editBlock (b : Block) (record : List Entry) :
    (Editor.recording.editBlock b record).1 = b ∧
    (Editor.recording.editBlock b record).2 = (Visitor.recording.visitBlock b record).2 ∧
    (Editor.recording.editBlock b record).2 = record ++ b.entries := by
  have hwalk : Editor.recording.editBlock b record =
      (b, (Visitor.recording.visitBlock b record).2) := watching_editBlock _ _ b record
  rw [hwalk]
  exact ⟨rfl, rfl, recording_visitBlock b record⟩

end MiddleEnd
