/-
  Constants, their types and their texts.
-/
import MiddleEnd.Number.Decimal
import MiddleEnd.Number.FloatText
import MiddleEnd.Text.Escape

namespace MiddleEnd

/-- Types that need no declaration. -/
inductive PrimitiveType where
  | void
  | object
  | boolean
  | char
  | int8
  | uint8
  | int16
  | uint16
  | int32
  | uint32
  | int64
  | uint64
  | single
  | double
  | decimal
  | string
  | dateTime
  | dbNull
  deriving DecidableEq, Repr

namespace PrimitiveType

/-- The name of a built-in type in a text. -/
def text : PrimitiveType → String
  | .void => "void"
  | .object => "object"
  | .boolean => "bool"
  | .char => "char"
  | .int8 => "int8"
  | .uint8 => "uint8"
  | .int16 => "int16"
  | .uint16 => "uint16"
  | .int32 => "int32"
  | .uint32 => "uint32"
  | .int64 => "int64"
  | .uint64 => "uint64"
  | .single => "float32"
  | .double => "float64"
  | .decimal => "decimal"
  | .string => "string"
  | .dateTime => "datetime"
  | .dbNull => "dbnull"

/-- All built-in types. -/
def all : List PrimitiveType :=
  [.void, .object, .boolean, .char, .int8, .uint8, .int16, .uint16, .int32, .uint32, .int64,
   .uint64, .single, .double, .decimal, .string, .dateTime, .dbNull]

/-- The built-in type of a name. -/
def ofText? (s : String) : Option PrimitiveType := all.find? fun t => t.text == s

end PrimitiveType

/-- The values that can be written in code. -/
inductive Literal where
  | null
  | boolean (value : Bool)
  | char (value : Char)
  | int8 (value : Int8)
  | uint8 (value : UInt8)
  | int16 (value : Int16)
  | uint16 (value : UInt16)
  | int32 (value : Int32)
  | uint32 (value : UInt32)
  | int64 (value : Int64)
  | uint64 (value : UInt64)
  | single (value : Single)
  | double (value : Double)
  | decimal (value : Decimal)
  | string (value : String)
  | dateTime (ticks : Int64)
  | dbNull
  deriving DecidableEq

namespace Literal

/-- A floating-point number that is none. -/
def isNaN : Literal → Bool
  | .single v => decide (v = .nan)
  | .double v => decide (v = .nan)
  | _ => false

/-- The static type; `null` is an object. -/
def type : Literal → PrimitiveType
  | .null => .object
  | .boolean _ => .boolean
  | .char _ => .char
  | .int8 _ => .int8
  | .uint8 _ => .uint8
  | .int16 _ => .int16
  | .uint16 _ => .uint16
  | .int32 _ => .int32
  | .uint32 _ => .uint32
  | .int64 _ => .int64
  | .uint64 _ => .uint64
  | .single _ => .single
  | .double _ => .double
  | .decimal _ => .decimal
  | .string _ => .string
  | .dateTime _ => .dateTime
  | .dbNull => .dbNull

/-- A value as it is shown in a text. -/
def text : Literal → String
  | .null => "null"
  | .boolean v => if v then "true" else "false"
  | .char v => "'" ++ Text.literal (String.ofList [v]) ++ "'"
  | .int8 v => toString v.toInt
  | .uint8 v => toString v.toNat
  | .int16 v => toString v.toInt
  | .uint16 v => toString v.toNat
  | .int32 v => toString v.toInt
  | .uint32 v => toString v.toNat ++ "u"
  | .int64 v => toString v.toInt ++ "L"
  | .uint64 v => toString v.toNat ++ "UL"
  | .single v => FloatLayout.suffixed.text v ++ "f"
  | .double v => FloatLayout.literal.text v
  | .decimal v => v.text
  | .string v => "\"" ++ Text.literal v ++ "\""
  | .dateTime v => "datetime(" ++ toString v.toInt ++ ")"
  | .dbNull => "dbnull"

end Literal

end MiddleEnd
