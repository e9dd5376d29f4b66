/-
  Members of types: fields, methods with their bodies, properties, events, nested types.
-/
import MiddleEnd.Code.Leaf
import MiddleEnd.Code.Text
import MiddleEnd.Universe.Flags

namespace MiddleEnd

/-- An argument of an attribute, by its position or by a name. -/
inductive AttributeArgument where
  | positional (value : Expr)
  | named (name : String) (value : Expr)

/-- A use of a custom attribute; the constructor is the attribute's name. -/
structure Attribute where
  constructor : Expr
  arguments : List AttributeArgument

/-- The arguments without a name, in their order. -/
def Attribute.positional (a : Attribute) : List Expr :=
  a.arguments.filterMap fun
    | .positional value => some value
    | .named _ _ => none

/-- The type of a parameter that is passed by reference is a reference. -/
structure Parameter where
  name : String
  type : TypeRef
  attributes : List Attribute := []

/-- A parameter as it is shown. -/
def Parameter.text (p : Parameter) : String := p.type.text ++ " " ++ p.name

/-- What a parameter quotes. -/
def Parameter.quotes (p : Parameter) : Quotes := p.type.quotes

/-- Parameters as they are shown. -/
def parametersText (ps : List Parameter) : String := Text.join ", " (ps.map (·.text))

/-- A fact that a caller has to see to. -/
inductive Precondition where
  | nonNull (value : Expr)

/-- A precondition as it is shown. -/
def Precondition.text : Precondition → String
  | .nonNull value => value.text ++ " != null"

/-- What a precondition quotes. -/
def Precondition.quotes : Precondition → Quotes
  | .nonNull value => value.quotes

/-- The statements of a method, and how many temporaries have been handed out. -/
structure Body where
  block : Block := .empty
  tempCount : Nat := 0

/-- Hands out a fresh temporary. -/
def Body.newTemp (b : Body) : LocalId × Body :=
  (⟨b.tempCount⟩, { b with tempCount := b.tempCount + 1 })

/-- The kinds of methods. -/
inductive MethodKind where
  | ordinary
  /-- An instance constructor; its body starts with a call of another constructor. -/
  | instanceInitializer
  deriving DecidableEq, Repr

/-- A method with its signature, its body and what is known to hold before it. -/
structure Method where
  kind : MethodKind := .ordinary
  parameters : List Parameter := []
  returnType : TypeRef := .void
  returnAttributes : List Attribute := []
  flags : MethodFlags := {}
  /-- Absent from what has no implementation. -/
  body : Option Body := none
  implementedTypes : List TypeRef := []
  /-- Calls stay only where this symbol is defined. -/
  conditionalSymbol : Option String := none
  preconditions : List Precondition := []
  /-- Preconditions inferred for a method that cannot be called from outside. -/
  implicitPreconditions : List Precondition := []

/-- The method is a constructor. -/
def Method.isConstructor (m : Method) : Bool := m.kind == .instanceInitializer

/-- A field with its initial value or, for a constant, its value. -/
structure Field where
  type : TypeRef
  flags : FieldFlags := {}
  initializer : Option Expr := none
  defaultValue : Option Literal := none

/-- A property with references to its accessors. -/
structure Property where
  type : TypeRef
  parameters : List Parameter := []
  getter : Option MemberRef := none
  setter : Option MemberRef := none
  implementedTypes : List TypeRef := []
  isStatic : Bool := false

/-- An event. -/
structure Event where
  type : TypeRef
  flags : MethodFlags := {}
  implementedTypes : List TypeRef := []

/-- What a member is. -/
inductive MemberKind where
  | field (field : Field)
  | method (method : Method)
  | property (property : Property)
  | event (event : Event)
  | nestedType (id : TypeId)
  /-- Source text as it stands. -/
  | snippet

/-- A member of a type. -/
structure Member where
  name : String
  /-- The type that owns the member. -/
  declaringType : TypeId
  attributes : List Attribute := []
  kind : MemberKind
  source : Option SourceContext := none

namespace Member

/-- The method that a member is. -/
def method? (m : Member) : Option Method :=
  match m.kind with
  | .method method => some method
  | _ => none

/-- The field that a member is. -/
def field? (m : Member) : Option Field :=
  match m.kind with
  | .field field => some field
  | _ => none

/-- The property that a member is. -/
def property? (m : Member) : Option Property :=
  match m.kind with
  | .property property => some property
  | _ => none

/-- Static members have no receiver; nested types and snippets count as static. -/
def isStatic (m : Member) : Bool :=
  match m.kind with
  | .field field => field.flags.isStatic
  | .method method => method.flags.isStatic
  | .property property => property.isStatic
  | .event event => event.flags.isStatic
  | .nestedType _ => true
  | .snippet => true

/-- Changes the method that the member is; other members stay as they are. -/
def modifyMethod (f : Method → Method) (m : Member) : Member :=
  match m.kind with
  | .method method => { m with kind := .method (f method) }
  | _ => m

end Member

end MiddleEnd
