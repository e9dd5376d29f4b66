/-
  Symbols that the passes know by name.
-/
import MiddleEnd.Universe.Basic

namespace MiddleEnd

/-- The guard type and the checks that it offers. -/
structure WellKnown where
  guardType : TypeId
  checkIsReading : MemberRef
  checkIsWriting : MemberRef
  deriving DecidableEq, Repr

namespace WellKnown

/-- The name of the type of guards. -/
def guardTypeName : String := "Microsoft.Contracts.Guard"

/-- The name of the check for reading. -/
def readingName : String := "CheckIsReading"

/-- The name of the check for writing. -/
def writingName : String := "CheckIsWriting"

/-- The type of guards. -/
def findGuard (u : Universe) : Except InternalError TypeId :=
  match u.findType? guardTypeName with
  | some id => .ok id
  | none => .error (.missingWellKnown guardTypeName)

/-- A method of the guard type. -/
def findCheck (u : Universe) (guard : TypeId) (name : String) : Except InternalError MemberRef :=
  match u.findMethod? guard name with
  | some method => .ok method
  | none => .error (.missingWellKnown (guardTypeName ++ "." ++ name))

/-- The type of guards and its checks, if all are there. -/
def ofUniverse (u : Universe) : Except InternalError WellKnown := do
  let guardType ← findGuard u
  let checkIsReading ← findCheck u guardType readingName
  let checkIsWriting ← findCheck u guardType writingName
  return { guardType, checkIsReading, checkIsWriting }

end WellKnown

end MiddleEnd
