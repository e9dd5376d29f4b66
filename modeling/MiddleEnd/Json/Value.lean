/-
  JSON values and their texts. Objects keep their fields in order, and numbers keep the kind they
  were given as.
-/
import MiddleEnd.Number.FloatText

namespace MiddleEnd

/-- A number: a whole one of any size, or a floating-point number of a width. -/
inductive JsonNumber where
  | int (value : Int)
  | single (value : Single)
  | double (value : Double)
  deriving DecidableEq, Repr

/-- A value. -/
inductive Json where
  | null
  | bool (value : Bool)
  | number (value : JsonNumber)
  | string (value : String)
  | array (items : List Json)
  | object (fields : List (String × Json))
  deriving Repr

namespace Json

/-- A whole number. -/
def ofInt (i : Int) : Json := .number (.int i)

/-- A natural number. -/
def ofNat (n : Nat) : Json := .number (.int n)

/-- A list of texts. -/
def strings (texts : List String) : Json := .array (texts.map .string)

/-- The value, or `null` in its place. -/
def option (encode : α → Json) : Option α → Json
  | some a => encode a
  | none => .null

/-- A hexadecimal digit. -/
def hexDigit (n : Nat) : Char := if n < 10 then Char.ofNat (48 + n) else Char.ofNat (87 + n)

/-- A character inside a string: quotes, backslashes and control characters are escaped. -/
def stringChar (c : Char) : List Char :=
  if c = '"' then ['\\', '"']
  else if c = '\\' then ['\\', '\\']
  else if c = '\n' then ['\\', 'n']
  else if c = '\r' then ['\\', 'r']
  else if c = '\t' then ['\\', 't']
  else if c = '\x08' then ['\\', 'b']
  else if c = '\x0c' then ['\\', 'f']
  else if c.toNat < 0x20 then
    ['\\', 'u', '0', '0', hexDigit (c.toNat / 16), hexDigit (c.toNat % 16)]
  else [c]

/-- A text between quotation marks. -/
def stringChars (s : String) : List Char := '"' :: s.toList.flatMap stringChar ++ ['"']

/-- A whole number in decimal digits. -/
def intChars (i : Int) : List Char :=
  if i < 0 then '-' :: Nat.toDigits 10 i.natAbs else Nat.toDigits 10 i.natAbs

/-- The word for nothing. -/
def nullChars : List Char := ['n', 'u', 'l', 'l']

/-- The words for truth values. -/
def boolChars : Bool → List Char
  | true => ['t', 'r', 'u', 'e']
  | false => ['f', 'a', 'l', 's', 'e']

/-- A number without a finite value is written as `null`. -/
def numberChars : JsonNumber → List Char
  | .int i => intChars i
  | .single v => if v.isFinite then (FloatLayout.jsonSingle.text v).toList else nullChars
  | .double v => if v.isFinite then (FloatLayout.jsonDouble.text v).toList else nullChars

/-- A new line, indented for a depth. -/
def newline (depth : Nat) : List Char := '\n' :: List.replicate (2 * depth) ' '

mutual

/-- The indented text of a value that stands `depth` levels deep. -/
def prettyChars (depth : Nat) : Json → List Char
  | .null => nullChars
  | .bool b => boolChars b
  | .number n => numberChars n
  | .string s => stringChars s
  | .array [] => ['[', ']']
  | .array (item :: items) =>
    '[' :: newline (depth + 1) ++ prettyChars (depth + 1) item ++ prettyItems (depth + 1) items
      ++ newline depth ++ [']']
  | .object [] => ['\x7b', '\x7d']
  | .object ((key, value) :: fields) =>
    '\x7b' :: newline (depth + 1) ++ stringChars key ++ [':', ' '] ++ prettyChars (depth + 1) value
      ++ prettyFields (depth + 1) fields ++ newline depth ++ ['\x7d']

/-- The items after the first. -/
def prettyItems (depth : Nat) : List Json → List Char
  | [] => []
  | item :: items => ',' :: newline depth ++ prettyChars depth item ++ prettyItems depth items

/-- The fields after the first. -/
def prettyFields (depth : Nat) : List (String × Json) → List Char
  | [] => []
  | (key, value) :: fields =>
    ',' :: newline depth ++ stringChars key ++ [':', ' '] ++ prettyChars depth value
      ++ prettyFields depth fields

end

/-- The text with one item or field a line, indented by two blanks a level. -/
def pretty (j : Json) : String := String.ofList (prettyChars 0 j)

mutual

/-- The text on one line; `tail` follows it. -/
def compactChars (tail : List Char) : Json → List Char
  | .null => nullChars ++ tail
  | .bool b => boolChars b ++ tail
  | .number n => numberChars n ++ tail
  | .string s => stringChars s ++ tail
  | .array items => '[' :: compactItems (']' :: tail) items
  | .object fields => '\x7b' :: compactFields ('\x7d' :: tail) fields

/-- Items without blanks between them. -/
def compactItems (tail : List Char) : List Json → List Char
  | [] => tail
  | [item] => compactChars tail item
  | item :: items => compactChars (',' :: compactItems tail items) item

/-- Fields without blanks between them. -/
def compactFields (tail : List Char) : List (String × Json) → List Char
  | [] => tail
  | [(key, value)] => stringChars key ++ ':' :: compactChars tail value
  | (key, value) :: fields =>
    stringChars key ++ ':' :: compactChars (',' :: compactFields tail fields) value

end

/-- The text without blanks. -/
def compact (j : Json) : String := String.ofList (compactChars [] j)

end Json

end MiddleEnd
