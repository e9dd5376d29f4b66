/-
  Names, types, flags and constants of a code tree in terms of the universe.
-/
import MiddleEnd.CodeTree.Basic
import MiddleEnd.Text.Split
import MiddleEnd.Universe.Member

namespace MiddleEnd.Lowering

/-- `((head).a).b` for the pieces `a`, `b`. -/
def qualifyFrom (head : Expr) (pieces : List (List Char)) : Expr :=
  pieces.foldl (fun e piece => (ExprForm.qualified e (String.ofList piece)).expr) head

/-- A dotted name as a chain of qualified names. A dot at the very start does not split. -/
def qualify (dotted : String) : Expr :=
  match Text.pieces '.' dotted.toList with
  | [] :: piece :: rest => qualifyFrom (.identifier (String.ofList ('.' :: piece))) rest
  | piece :: rest => qualifyFrom (.identifier (String.ofList piece)) rest
  | [] => .identifier dotted

mutual

/-- The type that a type of a tree stands for. -/
def typeRef : CodeTree.TypeReference → TypeRef
  | ⟨baseType, element, rank⟩ => elementRef baseType rank element

/-- An array of its element type, or the named type. -/
def elementRef (baseType : String) (rank : UInt32) : Option CodeTree.TypeReference → TypeRef
  | some element => .array (typeRef element) rank
  | none => .named (qualify baseType)

end

/-- A missing type is void. -/
def returnType : Option CodeTree.TypeReference → TypeRef
  | some type => typeRef type
  | none => .void

/-- A private implementation type wins over the listed ones. -/
def implementedTypes (own : Option CodeTree.TypeReference) (listed : List CodeTree.TypeReference) :
    List TypeRef :=
  match own with
  | some type => [typeRef type]
  | none => listed.map typeRef

/-- The visibility of a type; an unknown value means that it is not public. -/
def typeVisibility (a : CodeTree.TypeAttributes) : TypeVisibility :=
  match (a.category CodeTree.TypeAttributes.visibilityMask).toNat with
  | 1 => .publicType
  | 2 => .nestedPublic
  | 3 => .nestedPrivate
  | 4 => .nestedFamily
  | 5 => .nestedAssembly
  | 6 => .nestedFamAndAssem
  | 7 => .nestedFamOrAssem
  | _ => .notPublic

/-- The layout of a type. -/
def layout (a : CodeTree.TypeAttributes) : Layout :=
  match (a.category CodeTree.TypeAttributes.layoutMask).toNat with
  | 0x8 => .sequential
  | 0x10 => .explicit
  | _ => .auto

/-- The string format of a type. -/
def stringFormat (a : CodeTree.TypeAttributes) : StringFormat :=
  match (a.category CodeTree.TypeAttributes.stringFormatMask).toNat with
  | 0x10000 => .unicode
  | 0x20000 => .auto
  | _ => .ansi

/-- The flags of a type. -/
def typeFlags (a : CodeTree.TypeAttributes) : TypeFlags where
  visibility := typeVisibility a
  layout := layout a
  stringFormat := stringFormat a
  isAbstract := a.contains CodeTree.TypeAttributes.isAbstract
  isSealed := a.contains CodeTree.TypeAttributes.isSealed
  specialName := a.contains CodeTree.TypeAttributes.specialName
  rtSpecialName := a.contains CodeTree.TypeAttributes.rtSpecialName
  serializable := a.contains CodeTree.TypeAttributes.serializable
  beforeFieldInit := a.contains CodeTree.TypeAttributes.beforeFieldInit
  hasSecurity := a.contains CodeTree.TypeAttributes.hasSecurity
  isImport := a.contains CodeTree.TypeAttributes.isImport

/-- The visibility of a member; an unknown value means private. -/
def visibility (a : CodeTree.MemberAttributes) : Visibility :=
  match a.access.toNat with
  | 0x1000 => .assembly
  | 0x2000 => .famAndAssem
  | 0x3000 => .family
  | 0x4000 => .famOrAssem
  | 0x6000 => .publicMember
  | _ => .privateMember

/-- The member belongs to the type and not to its instances. -/
def isStatic (a : CodeTree.MemberAttributes) : Bool := a.scope == 3

/-- The member is a constant. -/
def isConst (a : CodeTree.MemberAttributes) : Bool := a.scope == 5

/-- What is neither abstract, final, static nor an override is virtual. -/
def dispatch (a : CodeTree.MemberAttributes) : Dispatch :=
  match a.scope.toNat with
  | 1 => .abstract
  | 2 => .none
  | 3 => .none
  | 4 => .override
  | _ => .virtual

/-- The flags of a method. -/
def methodFlags (a : CodeTree.MemberAttributes) : MethodFlags where
  visibility := visibility a
  dispatch := dispatch a
  newSlot := a.isNew
  isStatic := isStatic a
  hasThis := !isStatic a

/-- Assignment is no binary operation. -/
def binaryOp? : CodeTree.BinaryOperator → Option BinaryOp
  | .assign => none
  | .add => some .add
  | .bitwiseAnd => some .and
  | .bitwiseOr => some .or
  | .booleanAnd => some .logicalAnd
  | .booleanOr => some .logicalOr
  | .divide => some .div
  | .greaterThan => some .gt
  | .greaterThanOrEqual => some .ge
  | .identityEquality => some .eq
  | .valueEquality => some .eq
  | .identityInequality => some .ne
  | .lessThan => some .lt
  | .lessThanOrEqual => some .le
  | .modulus => some .rem
  | .multiply => some .mul
  | .subtract => some .sub

/-- The literal for a value of a tree. -/
def literal : CodeTree.Primitive → Literal
  | .null => .null
  | .boolean v => .boolean v
  | .char v => .char v
  | .sbyte v => .int8 v
  | .byte v => .uint8 v
  | .int16 v => .int16 v
  | .uint16 v => .uint16 v
  | .int32 v => .int32 v
  | .uint32 v => .uint32 v
  | .int64 v => .int64 v
  | .uint64 v => .uint64 v
  | .single v => .single v
  | .double v => .double v
  | .decimal v => .decimal v
  | .string v => .string v
  | .dateTime v => .dateTime v
  | .dbNull => .dbNull

/-- The size of an array given by `count` initial values and a declared size. -/
def arraySize (count : Nat) (size : Int32) : Int32 :=
  let known : Int32 := if count < Nat.pow 2 31 then Int32.ofNat count else 2147483647
  if known < size then size else known

/-- Attributes that tie calls of a method to a symbol. -/
def conditionalNames : List String :=
  ["Conditional", "ConditionalAttribute", "System.Diagnostics.Conditional",
   "System.Diagnostics.ConditionalAttribute"]

/-- An argument without a name. -/
def isPositional (a : CodeTree.AttributeArgument) : Bool :=
  match a.name with
  | none => true
  | some name => name == ""

/-- The text given as the first positional argument. -/
def symbolArgument? (a : CodeTree.Attribute) : Option String :=
  match a.arguments.find? isPositional with
  | some ⟨_, ⟨.primitive (.string symbol), _⟩⟩ => some symbol
  | _ => none

/-- The symbol that calls of the method depend on. -/
def conditionalSymbol? (attributes : List CodeTree.Attribute) : Option String :=
  (attributes.filter fun a => conditionalNames.contains a.name).findSome? symbolArgument?

end MiddleEnd.Lowering
