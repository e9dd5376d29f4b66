/-
  Breaches of what earlier phases should have established, and failures to find an assembly.
-/
import MiddleEnd.Universe.Id

namespace MiddleEnd

/-- Errors in the compiler itself and in what it is given, not in the code. -/
inductive InternalError where
  | missingWellKnown (symbol : String)
  | danglingModule (id : ModuleId)
  | danglingType (id : TypeId)
  | danglingMember (member : MemberRef)
  | bodyConflict (method : MemberRef)
  deriving DecidableEq, Repr

namespace InternalError

/-- The message about a missing symbol. -/
def missingWellKnownText (symbol : String) : String :=
  "well-known symbol `" ++ symbol ++ "` is missing from the type universe"

/-- The message about an id without a module. -/
def danglingModuleText (id : String) : String :=
  "module id " ++ id ++ " does not name a module in the universe"

/-- The message about an id without a type. -/
def danglingTypeText (id : String) : String :=
  "type id " ++ id ++ " does not name a type in the universe"

/-- The message about a reference without a member. -/
def danglingMemberText (type : String) (index : Nat) : String :=
  "member " ++ toString index ++ " does not exist on type " ++ type

/-- The message about a body that is put back over another. -/
def bodyConflictText (method : String) : String :=
  "body of `" ++ method ++ "` was reattached while another body is present"

/-- The message of an error. -/
def message : InternalError → String
  | .missingWellKnown symbol => missingWellKnownText symbol
  | .danglingModule id => danglingModuleText id.text
  | .danglingType id => danglingTypeText id.text
  | .danglingMember member => danglingMemberText member.type.text member.index
  | .bodyConflict method => bodyConflictText method.text

end InternalError

/-- Why an assembly could not be had. -/
inductive ResolveError where
  | notFound (name : String)
  | unreadable (name reason : String)
  deriving DecidableEq, Repr

namespace ResolveError

/-- The assembly that was asked for. -/
def assemblyName : ResolveError → String
  | .notFound name => name
  | .unreadable name _ => name

/-- The message of a failed request. -/
def message : ResolveError → String
  | .notFound name => "assembly `" ++ name ++ "` was not found"
  | .unreadable name reason => "assembly `" ++ name ++ "` could not be loaded: " ++ reason

end ResolveError

end MiddleEnd
