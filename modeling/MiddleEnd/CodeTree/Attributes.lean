/-
  Modifier masks of declarations. A mask groups mutually exclusive categories, each selected by a
  field of bits, and independent bits.
-/

namespace MiddleEnd.CodeTree

/-- Modifiers of a type declaration. -/
structure TypeAttributes where
  bits : UInt32 := 0
  deriving DecidableEq, Repr

namespace TypeAttributes

/-- The bits that hold the visibility of a type. -/
def visibilityMask : UInt32 := 0x7

/-- The bits that hold the layout of a type. -/
def layoutMask : UInt32 := 0x18

/-- The bits that hold the string format of a type. -/
def stringFormatMask : UInt32 := 0x30000

/-- The type has no instances of its own. -/
def isAbstract : UInt32 := 0x80

/-- No type derives from the type. -/
def isSealed : UInt32 := 0x100

/-- The name of the type has a special meaning. -/
def specialName : UInt32 := 0x400

/-- The name of the type has a special meaning for the runtime. -/
def rtSpecialName : UInt32 := 0x800

/-- The type is declared elsewhere. -/
def isImport : UInt32 := 0x1000

/-- Instances of the type can be stored. -/
def serializable : UInt32 := 0x2000

/-- The type has security attributes. -/
def hasSecurity : UInt32 := 0x40000

/-- Static fields may be set up at any time before their first use. -/
def beforeFieldInit : UInt32 := 0x100000

/-- Visible everywhere. -/
def publicType : TypeAttributes := ⟨1⟩

/-- The value of the category that `mask` selects. -/
def category (a : TypeAttributes) (mask : UInt32) : UInt32 := a.bits &&& mask

/-- All bits of `bit` are set. -/
def contains (a : TypeAttributes) (bit : UInt32) : Bool := a.bits &&& bit == bit

/-- The attributes with further bits set. -/
def or (a : TypeAttributes) (bits : UInt32) : TypeAttributes := ⟨a.bits ||| bits⟩

end TypeAttributes

/-- Modifiers of a member: private and final if nothing is said. -/
structure MemberAttributes where
  bits : UInt32 := 0x5002
  deriving DecidableEq, Repr

namespace MemberAttributes

/-- The bits that hold the scope of a member: abstract, final, static, override or constant. -/
def scopeMask : UInt32 := 0xf

/-- The bits that say whether a member hides one of the same name. -/
def vtableMask : UInt32 := 0xf0

/-- The bits that hold the access to a member. -/
def accessMask : UInt32 := 0xf000

/-- The access to a member. -/
def access (a : MemberAttributes) : UInt32 := a.bits &&& accessMask

/-- The scope of a member. -/
def scope (a : MemberAttributes) : UInt32 := a.bits &&& scopeMask

/-- The member hides one of the same name. -/
def isNew (a : MemberAttributes) : Bool := a.bits &&& vtableMask == 0x10

/-- The attributes with further bits set. -/
def or (a : MemberAttributes) (bits : UInt32) : MemberAttributes := ⟨a.bits ||| bits⟩

/-- Public and static, as an entry point always is. -/
def publicStatic : MemberAttributes := ⟨0x6003⟩

end MemberAttributes

end MiddleEnd.CodeTree
