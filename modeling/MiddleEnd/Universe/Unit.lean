/-
  Compilation units: the namespaces of a code tree over the types they declare, and the symbols
  that are defined for it.
-/
import MiddleEnd.Source.Document
import MiddleEnd.Text.Escape
import MiddleEnd.Universe.Id

namespace MiddleEnd

/-- The root namespace has an empty name. -/
structure Namespace where
  name : String := ""
  namespaces : List Namespace := []
  types : List TypeId := []
  usedNamespaces : List String := []
  source : Option SourceContext := none

mutual

/-- The types of a namespace, then those of the namespaces inside it. -/
def Namespace.allTypes : Namespace → List TypeId
  | ⟨_, namespaces, types, _, _⟩ => types ++ allTypesOf namespaces

/-- The types of namespaces and of those in them. -/
def allTypesOf : List Namespace → List TypeId
  | [] => []
  | n :: ns => n.allTypes ++ allTypesOf ns

end

/-- Symbols in ascending order, each once. -/
structure SymbolSet where
  names : List String := []
  deriving DecidableEq, Repr

namespace SymbolSet

/-- Puts a name into its place among sorted names, unless it is there. -/
def insertName (name : String) : List String → List String
  | [] => [name]
  | n :: ns =>
    if name < n then name :: n :: ns
    else if n < name then n :: insertName name ns
    else n :: ns

/-- The names of a list, sorted, each of them once. -/
def ofList (names : List String) : SymbolSet := ⟨names.foldl (fun ns n => insertName n ns) []⟩

/-- The name is in the set. -/
def contains (s : SymbolSet) (name : String) : Bool := s.names.contains name

/-- The names as they are shown. -/
def text (s : SymbolSet) : String :=
  "\x7b" ++ Text.join ", " (s.names.map Text.quoted) ++ "\x7d"

/-- The text of symbols that may be absent. -/
def optionText : Option SymbolSet → String
  | none => "None"
  | some s => "Some(" ++ s.text ++ ")"

end SymbolSet

/-- A unit of the program, as lowering leaves it. -/
structure CompilationUnit where
  name : Option String := none
  root : Namespace := {}
  source : Option SourceContext := none
  /-- Absent if the front end has not given any. -/
  symbols : Option SymbolSet := none
  isSnippet : Bool := false

/-- The unit has symbols and the symbol is one of them. -/
def CompilationUnit.defines (u : CompilationUnit) (symbol : String) : Bool :=
  match u.symbols with
  | some symbols => symbols.contains symbol
  | none => false

end MiddleEnd
