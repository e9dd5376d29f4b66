/-
  Conditional elimination. A call of a method that is tied to a symbol stays only where the symbol
  is defined; otherwise it goes, and with it whatever needs its value.
-/
import MiddleEnd.Code.Editor
import MiddleEnd.Code.Text
import MiddleEnd.Pass.Basic

namespace MiddleEnd.Conditional

/-- The symbols of the unit at hand, those of the units around it, and the calls removed so far. -/
structure State where
  symbols : Option SymbolSet := none
  saved : List (Option SymbolSet) := []
  eliminated : Nat := 0
  deriving DecidableEq, Repr

/-- The outermost unit comes first. -/
def State.text (s : State) : String :=
  "ConditionalElimination \x7b symbols: " ++ SymbolSet.optionText s.symbols ++
  ", saved: [" ++ Text.join ", " (s.saved.reverse.map SymbolSet.optionText) ++
  "], eliminated: " ++ toString s.eliminated ++ " \x7d"

/-- The symbol that a call of `callee` depends on. -/
def symbolOf (u : Universe) (callee : Expr) : Except InternalError (Option String) := do
  match callee.form with
  | .member _ ref =>
    match (← u.member ref).method? with
    | some method => return method.conditionalSymbol
    | none => return none
  | _ => return none

/-- The symbol is among those of the unit. -/
def isDefined (symbols : Option SymbolSet) (symbol : String) : Bool :=
  match symbols with
  | some symbols => symbols.contains symbol
  | none => false

/-- The state of an elimination in one body; only the first failure is kept. -/
structure Elimination where
  eliminated : Nat := 0
  trace : Trace := []
  failure : Option InternalError := none

/-- A call that depends on an undefined symbol goes before its parts are looked at. -/
def editCall (u : Universe) (symbols : Option SymbolSet) (callee : Expr)
    (walk : Edit Elimination Expr) : Edit Elimination Expr := do
  match symbolOf u callee with
  | .ok (some symbol) =>
    if isDefined symbols symbol then walk
    else
      Edit.always (modify fun s => { s with
        eliminated := s.eliminated + 1
        trace := s.trace ++ [.eliminatedCall symbol callee] })
      Edit.delete
  | .ok none => walk
  | .error e =>
    Edit.always (modify fun s => { s with failure := s.failure.or (some e) })
    walk

/-- Removes calls that depend on a symbol which is not defined. -/
def editor (u : Universe) (symbols : Option SymbolSet) : Editor Elimination where
  call := fun _ callee _ walk => editCall u symbols callee walk

/-- To tell of a call is to quote its callee. -/
def quoteCallee (_ : Unit) : TraceEvent → Except Overflow Unit
  | .eliminatedCall _ callee => quoting () callee.quotes
  | _ => .ok ()

/-- Removes calls from a body and counts them, unless a lookup fails. -/
def editBody (u : Universe) (_ : MemberRef) (body : Body) (state : State) : EditedBody State :=
  let (block, s) := (editor u state.symbols).editBlock body.block {}
  { body := { body with block }
    state := if s.failure.isSome then state
      else { state with eliminated := state.eliminated + s.eliminated }
    trace := s.trace
    failure := s.failure
    breakOff := s.trace.breakOff? quoteCallee () }

/-- The symbols of the unit around come back at its end. -/
def endUnit (state : State) : State :=
  match state.saved with
  | [] => { state with symbols := none }
  | symbols :: saved => { state with symbols, saved }

/-- The pass that removes conditional calls. -/
def pass : BodyPass State where
  name := "conditional-elimination"
  beginUnit := fun unit state =>
    { state with symbols := unit.symbols, saved := state.symbols :: state.saved }
  endUnit := fun _ state => endUnit state
  editBody := editBody

end MiddleEnd.Conditional
