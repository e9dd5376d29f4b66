/-
  Precondition propagation. A body relies on every receiver of an instance member being non-null,
  and on what the methods it calls declare. A method that cannot be called from outside the
  assembly gets these facts as implicit preconditions; for others they are only told about.

  Facts are in terms of what a caller can see: a temporary stands for the value it was assigned,
  and a fact that depends on a temporary of unknown value is dropped.
-/
import MiddleEnd.Code.Editor
import MiddleEnd.Code.Visitor
import MiddleEnd.Pass.Basic

namespace MiddleEnd

/-- Preconditions in the order of their first insertion, one for each text. -/
structure PreconditionSet where
  items : List Precondition := []

namespace PreconditionSet

/-- A precondition of the same text is in the set. -/
def contains (s : PreconditionSet) (p : Precondition) : Bool :=
  s.items.any fun q => q.text == p.text

/-- Adds a precondition, unless one of the same text is there. -/
def insert (s : PreconditionSet) (p : Precondition) : PreconditionSet :=
  if s.contains p then s else ⟨s.items ++ [p]⟩

/-- The preconditions of a list, each text once. -/
def ofList (ps : List Precondition) : PreconditionSet := ps.foldl insert {}

/-- How many preconditions there are. -/
def size (s : PreconditionSet) : Nat := s.items.length

/-- There are no preconditions. -/
def isEmpty (s : PreconditionSet) : Bool := s.items.isEmpty

end PreconditionSet

/-- The values of temporaries, in terms of what a caller can see. -/
structure Spills where
  entries : List (LocalId × Expr) := []

namespace Spills

/-- What was spilled into a temporary. -/
def get? (s : Spills) (id : LocalId) : Option Expr := s.entries.lookup id

/-- Forgets what was spilled into a temporary. -/
def erase (s : Spills) (id : LocalId) : Spills := ⟨s.entries.filter fun e => e.1 != id⟩

/-- Remembers what is spilled into a temporary. -/
def insert (s : Spills) (id : LocalId) (value : Expr) : Spills := ⟨(id, value) :: s.entries⟩

/-- Puts values in the place of temporaries; the state tells whether one had none. -/
def editor (s : Spills) : Editor Bool where
  expr := fun e walk =>
    match e.form with
    | .temporary id =>
      match s.get? id with
      | some value => return value
      | none => do
        set true
        return e
    | _ => walk

/-- An expression without temporaries, if all of them have known values. -/
def resolve (s : Spills) (e : Expr) : Option Expr :=
  match (s.editor.editExpr e).run false with
  | (some e, false) => some e
  | _ => none

end Spills

namespace Preconditions

/-- The state of a collection from one body; only the first failure is kept. -/
structure Collection where
  facts : List Precondition := []
  spills : Spills := {}
  failure : Option InternalError := none

/-- A step of collecting. -/
abbrev Collect := StateM Collection

/-- The result of a lookup; the first failure is kept. -/
def record (result : Except InternalError α) : Collect (Option α) := do
  match result with
  | .ok a => return some a
  | .error e =>
    modify fun s => { s with failure := s.failure.or (some e) }
    return none

/-- Adds a fact. -/
def note (p : Precondition) : Collect Unit :=
  modify fun s => { s with facts := s.facts ++ [p] }

/-- An assignment to a temporary tells its value. -/
def noteSpill : StmtForm → Collect Unit
  | .assignment ⟨.temporary id, _, _⟩ value =>
    modify fun s =>
      match s.spills.resolve value with
      | some value => { s with spills := s.spills.insert id value }
      | none => { s with spills := s.spills.erase id }
  | _ => return

/-- The receiver of an instance member must not be null. -/
def noteReceiver (u : Universe) (receiver : Option Expr) (ref : MemberRef) : Collect Unit := do
  match receiver with
  | none => return
  | some receiver =>
    match ← record (u.member ref) with
    | none => return
    | some member =>
      if !member.isStatic then
        match (← get).spills.resolve receiver with
        | some receiver => note (.nonNull receiver)
        | none => return

/-- A call takes over what the method declares. -/
def noteCall (u : Universe) (callee : Expr) : Collect Unit := do
  match callee.form with
  | .member _ ref =>
    match (← record (u.member ref)).bind (·.method?) with
    | some method => method.preconditions.forM note
    | none => return
  | _ => return

/-- Collects what the receivers of members have to be. -/
def visitor (u : Universe) : Visitor Collection where
  stmt := fun s walk => do
    noteSpill s.form
    walk
  member := fun receiver ref walk => do
    noteReceiver u receiver ref
    walk
  call := fun callee _ walk => do
    noteCall u callee
    walk

/-- What a block relies on, in the order of its code. -/
def collect (u : Universe) (block : Block) : Collection :=
  (((visitor u).visitBlock block).run {}).2

/-- Facts are told apart by their texts, so each of them is quoted. -/
def quoteFacts (facts : List Precondition) : Option BreakOff :=
  match quoting () (facts.flatMap (·.quotes)) with
  | .ok () => none
  | .error cause => some { told := [], cause }

/-- The body stays; the state gets what it relies on. -/
def editBody (u : Universe) (_ : MemberRef) (body : Body) (state : PreconditionSet) :
    EditedBody PreconditionSet :=
  let c := collect u body.block
  { body
    state := if c.failure.isSome then state else .ofList c.facts
    failure := c.failure
    breakOff := quoteFacts c.facts }

/-- Attaches what was collected, or tells about it. -/
def finishMethod (ref : MemberRef) : PassM PreconditionSet Unit := do
  let s ← get
  let facts := s.state
  PassM.modifyState fun _ => {}
  if facts.isEmpty then return
  if ← PassM.ofExcept (s.types.isExternallyVisible ref) then
    let name := (← PassM.ofExcept (s.types.member ref)).name
    PassM.emit (.unprovenPreconditions name facts.size ::
      facts.items.map (.unprovenPrecondition name))
  else
    PassM.emit [.attachedPreconditions ref facts.size]
    let _ ← PassM.ofExcept (s.types.method ref)
    PassM.modifyTypes fun u =>
      u.modifyMethod ref fun m => { m with implicitPreconditions := facts.items }

/-- The state holds what was collected from the method at hand. -/
def pass : BodyPass PreconditionSet where
  name := "precondition-propagation"
  editBody := editBody
  finishMethod := finishMethod

end Preconditions

end MiddleEnd
