/-
  Modifiers of types and members. Each category of modifiers that exclude one another is a type.
-/

namespace MiddleEnd

/-- From where a type can be seen. -/
inductive TypeVisibility where
  | notPublic
  | publicType
  | nestedPublic
  | nestedPrivate
  | nestedFamily
  | nestedAssembly
  | nestedFamAndAssem
  | nestedFamOrAssem
  deriving DecidableEq, Repr

/-- Whether code outside the assembly sees the type, if it sees what the type is nested in. -/
def TypeVisibility.isVisibleOutside : TypeVisibility → Bool
  | .publicType | .nestedPublic | .nestedFamily | .nestedFamOrAssem => true
  | _ => false

/-- How the fields of a type are laid out. -/
inductive Layout where
  | auto
  | sequential
  | explicit
  deriving DecidableEq, Repr

/-- How texts are passed outside. -/
inductive StringFormat where
  | ansi
  | unicode
  | auto
  deriving DecidableEq, Repr

/-- What is known of a type besides its members. -/
structure TypeFlags where
  visibility : TypeVisibility := .notPublic
  layout : Layout := .auto
  stringFormat : StringFormat := .ansi
  isAbstract : Bool := false
  isSealed : Bool := false
  specialName : Bool := false
  rtSpecialName : Bool := false
  serializable : Bool := false
  beforeFieldInit : Bool := false
  hasSecurity : Bool := false
  isImport : Bool := false
  deriving DecidableEq, Repr

/-- Accessibility of methods, fields and events. -/
inductive Visibility where
  | privateMember
  | assembly
  | family
  | famAndAssem
  | famOrAssem
  | publicMember
  deriving DecidableEq, Repr

/-- The member can be seen outside of its module. -/
def Visibility.isVisibleOutside : Visibility → Bool
  | .publicMember | .family | .famOrAssem => true
  | _ => false

/-- The word for a visibility. -/
def Visibility.text : Visibility → String
  | .privateMember => "private"
  | .assembly => "assembly"
  | .family => "family"
  | .famAndAssem => "famandassem"
  | .famOrAssem => "famorassem"
  | .publicMember => "public"

/-- How calls find the method. An override reuses the slot of what it overrides. -/
inductive Dispatch where
  | none
  | virtual
  | abstract
  | override
  deriving DecidableEq, Repr

/-- The words for a way of dispatch. -/
def Dispatch.words : Dispatch → List String
  | .none => []
  | .virtual => ["virtual"]
  | .abstract => ["abstract"]
  | .override => ["override"]

/-- A word for a flag that is set. -/
def flagWord (set : Bool) (word : String) : List String := if set then [word] else []

/-- What is known of a method besides its signature and body. -/
structure MethodFlags where
  visibility : Visibility := .privateMember
  dispatch : Dispatch := .none
  newSlot : Bool := false
  isStatic : Bool := false
  specialName : Bool := false
  rtSpecialName : Bool := false
  /-- Calls pass a receiver. -/
  hasThis : Bool := false
  deriving DecidableEq, Repr

namespace MethodFlags

/-- An instance method without dispatch. -/
def onInstance (visibility : Visibility) : MethodFlags := { visibility, hasThis := true }

/-- The flags of a method as they are shown. -/
def text (f : MethodFlags) : String :=
  String.intercalate " " ([f.visibility.text] ++ flagWord f.isStatic "static" ++ f.dispatch.words
    ++ flagWord f.newSlot "newslot" ++ flagWord f.specialName "specialname"
    ++ flagWord f.rtSpecialName "rtspecialname" ++ flagWord f.hasThis "instance")

end MethodFlags

/-- What is known of a field besides its type. -/
structure FieldFlags where
  visibility : Visibility := .privateMember
  isStatic : Bool := false
  literal : Bool := false
  hasDefault : Bool := false
  deriving DecidableEq, Repr

/-- The flags of a field as they are shown. -/
def FieldFlags.text (f : FieldFlags) : String :=
  String.intercalate " " ([f.visibility.text] ++ flagWord f.isStatic "static"
    ++ flagWord f.literal "literal" ++ flagWord f.hasDefault "hasdefault")

end MiddleEnd
