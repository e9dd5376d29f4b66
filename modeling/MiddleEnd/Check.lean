/-
  Expectations on what becomes of a tree, and how it is told that one is not met.
-/
import MiddleEnd.Compile

namespace MiddleEnd

/-- Why a compilation does not pass a check. -/
inductive CheckFailure where
  | pipelineFailed (error : InternalError)
  | errorsFound (rendered : String)
  | wrongCount (count : Nat) (kind : ErrorKind) (found : Nat) (rendered : String)
  | textMissing (expected text : String)
  /-- The errors could not be rendered. -/
  | overflow (cause : Overflow)
  deriving DecidableEq, Repr

namespace CheckFailure

/-- The name of a kind of error in the text of a failed check. -/
def kindName : ErrorKind → String
  | .structural => "StructuralTranslation"
  | .reference => "ReferenceResolution"

/-- The text of a failed check. -/
def message : CheckFailure → String
  | .pipelineFailed error =>
    "Expected tree to compile, but the pipeline failed: " ++ error.message
  | .errorsFound rendered => "Expected tree to compile, but got errors:\n" ++ rendered
  | .wrongCount count kind found rendered =>
    "Expected " ++ toString count ++ " error(s) of kind " ++ kindName kind ++ ", found " ++
    toString found ++ ":\n" ++ rendered
  | .textMissing expected text =>
    "Expected IR to contain '" ++ expected ++ "', but it didn't.\n\nGenerated IR:\n" ++ text
  | .overflow cause => cause.message

end CheckFailure

namespace Check

/-- The errors of a compilation as they are shown. -/
def rendered (c : Compilation) : Except CheckFailure String :=
  match c.renderErrors with
  | .ok text => .ok text
  | .error cause => .error (.overflow cause)

/-- The tree goes through without errors. -/
def compiles (tree : CodeTree.CompileUnit) : Except CheckFailure Compilation :=
  match compile tree with
  | .error e => .error (.pipelineFailed e)
  | .ok c => do
    if c.success then return c
    throw (.errorsFound (← rendered c))

/-- Lowering records that many errors of a kind. -/
def reports (tree : CodeTree.CompileUnit) (kind : ErrorKind) (count : Nat) :
    Except CheckFailure Compilation := do
  let c := Compilation.lower tree
  let found := c.errors.count kind
  if found = count then return c
  throw (.wrongCount count kind found (← rendered c))

/-- Whether one text stands somewhere in another. -/
def occursIn (part : List Char) : List Char → Bool
  | [] => part.isEmpty
  | c :: cs => part.isPrefixOf (c :: cs) || occursIn part cs

/-- The tree goes through without errors, and its text holds what is expected. -/
def contains (tree : CodeTree.CompileUnit) (expected : String) : Except CheckFailure Unit := do
  let text := (← compiles tree).text
  if occursIn expected.toList text.toList then return
  throw (.textMissing expected text)

end Check

end MiddleEnd
