/-
  Reading JSON text. A draft is what a text says as far as it can be read: where the text breaks
  off or stops being JSON, the containers open at that point end with the reason, so that a
  consumer going through a draft in order meets its faults in the order of the text.
-/
import MiddleEnd.Json.Value

namespace MiddleEnd

/-- Why a text cannot be read on. -/
inductive Stop where
  | malformed
  | truncated
  /-- It ends in a number where a digit is missing. -/
  | openNumber
  /-- It ends in a string, or next to a key, that holds half a surrogate pair. -/
  | openPair
  deriving DecidableEq, Repr

/-- What has been scanned of a value, up to where scanning stopped. -/
inductive Draft where
  | null
  | bool (value : Bool)
  | number (value : JsonNumber)
  | string (value : String)
  /-- A scalar whose end is known but which has no value: a string with half a surrogate pair, a
      number out of range. -/
  | unreadable
  | array (items : List Draft) (stop : Option Stop)
  /-- A key with half a surrogate pair has no value. -/
  | object (fields : List (Option String × Draft)) (stop : Option Stop)
  | stop (why : Stop)
  deriving Repr

/-- What is left of the text behind a value. -/
abbrev Rest := Except Stop (List Char)

namespace Draft

/-- Where scanning stopped, if it did. -/
def stopOf : Rest → Option Stop
  | .ok _ => none
  | .error why => some why

/-- Why the text cannot be read on inside this value or behind it. -/
def stop? : Draft → Option Stop
  | .array _ why => why
  | .object _ why => why
  | .stop why => some why
  | _ => none

/-- A character that may stand between two tokens. -/
def isBlank (c : Char) : Bool := c == ' ' || c == '\n' || c == '\t' || c == '\r'

/-- What follows the blanks. -/
def skipBlank (cs : List Char) : List Char := cs.dropWhile isBlank

/-! Strings -/

/-- A part of a string: a character, or a 16-bit unit given by its number. -/
inductive Piece where
  | char (c : Char)
  | unit (n : Nat)
  deriving DecidableEq, Repr

/-- The value of a hexadecimal digit. -/
def hexValue (c : Char) : Option Nat :=
  if '0' ≤ c ∧ c ≤ '9' then some (c.toNat - 48)
  else if 'a' ≤ c ∧ c ≤ 'f' then some (c.toNat - 87)
  else if 'A' ≤ c ∧ c ≤ 'F' then some (c.toNat - 55)
  else none

/-- The number that four hexadecimal digits make up. -/
def hexUnit (a b c d : Char) : Option Nat := do
  return (((← hexValue a) * 16 + (← hexValue b)) * 16 + (← hexValue c)) * 16 + (← hexValue d)

/-- The reason why no four hexadecimal digits stand here: the text has to hold four more bytes. -/
def hexStop (cs : List Char) : Stop :=
  if (String.ofList cs).utf8ByteSize < 4 then .truncated else .malformed

/-- The character that a backslash and a character stand for. -/
def escaped (c : Char) : Option Char :=
  if c = '"' ∨ c = '\\' ∨ c = '/' then some c
  else if c = 'b' then some '\x08'
  else if c = 'f' then some '\x0c'
  else if c = 'n' then some '\n'
  else if c = 'r' then some '\r'
  else if c = 't' then some '\t'
  else none

/-- The parts of a string behind its opening quote. -/
def pieces : List Char → List Piece × Rest
  | [] => ([], .error .truncated)
  | '"' :: cs => ([], .ok cs)
  | '\\' :: 'u' :: a :: b :: c :: d :: cs =>
    match hexUnit a b c d with
    | some n =>
      let (ps, rest) := pieces cs
      (.unit n :: ps, rest)
    | none => ([], .error (hexStop (a :: b :: c :: d :: cs)))
  | '\\' :: 'u' :: cs => ([], .error (hexStop cs))
  | '\\' :: e :: cs =>
    match escaped e with
    | some c =>
      let (ps, rest) := pieces cs
      (.char c :: ps, rest)
    | none => ([], .error .malformed)
  | ['\\'] => ([], .error .truncated)
  | c :: cs =>
    if c.toNat < 0x20 then ([], .error .malformed)
    else
      let (ps, rest) := pieces cs
      (.char c :: ps, rest)

/-- The first half of a surrogate pair. -/
def isHigh (n : Nat) : Bool := decide (0xd800 ≤ n) && decide (n < 0xdc00)

/-- The second half of a surrogate pair. -/
def isLow (n : Nat) : Bool := decide (0xdc00 ≤ n) && decide (n < 0xe000)

/-- The characters the parts stand for, two surrogate units being one character. -/
def assemble : List Piece → Option (List Char)
  | [] => some []
  | .char c :: ps => (assemble ps).map (c :: ·)
  | .unit n :: ps =>
    if isHigh n then
      match ps with
      | .unit m :: qs =>
        if isLow m then
          (assemble qs).map (Char.ofNat (0x10000 + (n - 0xd800) * 0x400 + (m - 0xdc00)) :: ·)
        else none
      | _ => none
    else if isLow n then none
    else (assemble ps).map (Char.ofNat n :: ·)

/-- Parts cut off in the middle: a high unit at the very end may still have found its mate. -/
def dropOpenEnd (ps : List Piece) : List Piece :=
  match ps.getLast? with
  | some (.unit n) => if isHigh n then ps.dropLast else ps
  | _ => ps

/-- The end of a text in a string or next to one, which may be faulty already. -/
def endStop (readable : Bool) : Stop := if readable then .truncated else .openPair

/-- A string behind its opening quote; without a value if a surrogate stands alone. -/
def string? (cs : List Char) : Option String × Rest :=
  match pieces cs with
  | (ps, .ok rest) => ((assemble ps).map String.ofList, .ok rest)
  | (ps, .error .truncated) => (none, .error (endStop (assemble (dropOpenEnd ps)).isSome))
  | (_, .error why) => (none, .error why)

/-! Numbers -/

/-- A decimal digit. -/
def isDigit (c : Char) : Bool := decide ('0' ≤ c) && decide (c ≤ '9')

/-- The value of a decimal digit. -/
def digitValue (c : Char) : Nat := c.toNat - 48

/-- The number that decimal digits make up. -/
def natOf (digits : List Char) : Nat := digits.foldl (fun n c => n * 10 + digitValue c) 0

/-- Takes digits into the significand as long as it fits 64 bits; also tells how many. -/
def takeDigits (significand : Nat) : List Char → Nat × Nat
  | [] => (significand, 0)
  | c :: cs =>
    let next := significand * 10 + digitValue c
    if next < UInt64.size then
      let (n, taken) := takeDigits next cs
      (n, taken + 1)
    else (significand, 0)

/-- The double nearest to a power of ten. -/
def powerOfTen (k : Nat) : Double := .ofNat .double (Nat.pow 10 k)

/-- The significand as a double, multiplied or divided by powers of ten that are doubles themselves;
    none beyond the range. -/
def scale (significand : Nat) (exponent : Int) : Option Double :=
  let x : Double := .ofNat .double significand
  if x.isZero then some x
  else match exponent with
    | .ofNat k =>
      if k ≤ 308 then
        let y := x.mul (powerOfTen k)
        if y.isFinite then some y else none
      else none
    | .negSucc k =>
      let k := k + 1
      if k ≤ 308 then some (x.div (powerOfTen k))
      else if k ≤ 616 then some ((x.div (powerOfTen 308)).div (powerOfTen (k - 308)))
      else some (.zero false)

/-- The parts of a number: sign, digits before and behind the point, exponent. -/
structure NumberParts where
  negative : Bool
  whole : List Char
  fraction : Option (List Char)
  exponent : Option Int

/-- Whole numbers of at most 64 bits stay whole, except the negative zero. -/
def NumberParts.value (p : NumberParts) : Option JsonNumber :=
  let n := natOf p.whole
  let isWhole := p.fraction.isNone && p.exponent.isNone
  if isWhole && !p.negative && decide (n < UInt64.size) then some (.int n)
  else if isWhole && p.negative && decide (0 < n) && decide (n ≤ Nat.pow 2 63) then some (.int (-n))
  else
    let (m, taken) := takeDigits 0 p.whole
    let (m, behind) := takeDigits m (p.fraction.getD [])
    let exponent : Int := (p.whole.length - taken : Nat) - (behind : Int) + p.exponent.getD 0
    (scale m exponent).map fun x => .double (if p.negative then x.neg else x)

/-- The reason why a digit is missing here. -/
def digitStop (cs : List Char) : Stop := if cs.isEmpty then .openNumber else .malformed

/-- The digits in front of the point; a zero stands alone. -/
def scanWhole (cs : List Char) : Except Stop (List Char × List Char) :=
  match cs.takeWhile isDigit with
  | [] => .error (digitStop cs)
  | '0' :: _ :: _ => .error .malformed
  | ds => .ok (ds, cs.dropWhile isDigit)

/-- The digits behind the point, if there is one. -/
def scanFraction (cs : List Char) : Except Stop (Option (List Char) × List Char) :=
  match cs with
  | '.' :: cs =>
    match cs.takeWhile isDigit with
    | [] => .error (digitStop cs)
    | ds => .ok (some ds, cs.dropWhile isDigit)
  | cs => .ok (none, cs)

/-- The digits of an exponent, of which there is one at least. -/
def scanExponentDigits (negative : Bool) (cs : List Char) : Except Stop (Option Int × List Char) :=
  match cs.takeWhile isDigit with
  | [] => .error (digitStop cs)
  | ds => .ok (some (if negative then -(natOf ds : Int) else natOf ds), cs.dropWhile isDigit)

/-- The exponent, if there is one. -/
def scanExponent (cs : List Char) : Except Stop (Option Int × List Char) :=
  match cs with
  | c :: cs =>
    if c = 'e' ∨ c = 'E' then
      match cs with
      | '+' :: cs => scanExponentDigits false cs
      | '-' :: cs => scanExponentDigits true cs
      | cs => scanExponentDigits false cs
    else .ok (none, c :: cs)
  | [] => .ok (none, [])

/-- The parts of a number behind its sign. -/
def scanParts (negative : Bool) (cs : List Char) : Except Stop (NumberParts × List Char) := do
  let (whole, cs) ← scanWhole cs
  let (fraction, cs) ← scanFraction cs
  let (exponent, cs) ← scanExponent cs
  return ({ negative, whole, fraction, exponent }, cs)

/-- Scans a number behind its sign. -/
def scanNumber (negative : Bool) (cs : List Char) : Draft × Rest :=
  match scanParts negative cs with
  | .ok (parts, rest) =>
    match parts.value with
    | some n => (.number n, .ok rest)
    | none => (.unreadable, .ok rest)
  | .error why => (.stop why, .error why)

/-! Values -/

/-- What follows a given word, the first letter of which has been seen. -/
def expect : (word cs : List Char) → Rest
  | [], cs => .ok cs
  | _ :: _, [] => .error .truncated
  | w :: word, c :: cs => if w = c then expect word cs else .error .malformed

/-- Scans a word that stands for a value. -/
def scanWord (value : Draft) (word cs : List Char) : Draft × Rest :=
  match expect word cs with
  | .ok rest => (value, .ok rest)
  | .error why => (.stop why, .error why)

/-- Nothing more can be scanned. -/
def stopped (why : Stop) : Draft × Rest := (.stop why, .error why)

/-- Up to the value of a field: its key and the colon. -/
def scanKey (cs : List Char) : Except Stop (Option String × List Char) :=
  match cs with
  | [] => .error .truncated
  | '"' :: cs =>
    match string? cs with
    | (_, .error why) => .error why
    | (key, .ok rest) =>
      match skipBlank rest with
      | [] => .error (endStop key.isSome)
      | ':' :: rest => .ok (key, rest)
      | _ => .error .malformed
  | _ => .error .malformed

/-- Up to the next item of a container that `close` ends: the rest from the item on, or what follows
    the container. -/
def scanSeparator (close : Char) (first : Bool) (cs : List Char) :
    Except Stop (List Char ⊕ List Char) :=
  match skipBlank cs with
  | [] => .error .truncated
  | c :: cs =>
    if c = close then .ok (.inr cs)
    else if first then .ok (.inl (c :: cs))
    else if c = ',' then
      match skipBlank cs with
      | [] => .error .truncated
      | c :: cs => if c = close then .error .malformed else .ok (.inl (c :: cs))
    else .error .malformed

mutual

/-- A value and the rest behind it. A call for a value passes at least one character, and so does
    one for the items of a container, the first excepted; fuel beyond twice the length of the text
    is never used up. -/
def scanValue : (fuel : Nat) → List Char → Draft × Rest
  | 0, _ => stopped .truncated
  | fuel + 1, cs =>
    match skipBlank cs with
    | [] => stopped .truncated
    | c :: cs =>
      if c = 'n' then scanWord .null ['u', 'l', 'l'] cs
      else if c = 't' then scanWord (.bool true) ['r', 'u', 'e'] cs
      else if c = 'f' then scanWord (.bool false) ['a', 'l', 's', 'e'] cs
      else if c = '-' then scanNumber true cs
      else if isDigit c then scanNumber false (c :: cs)
      else if c = '"' then
        match string? cs with
        | (some s, .ok rest) => (.string s, .ok rest)
        | (none, .ok rest) => (.unreadable, .ok rest)
        | (_, .error why) => stopped why
      else if c = '[' then
        let (items, rest) := scanItems fuel true cs
        (.array items (stopOf rest), rest)
      else if c = '\x7b' then
        let (fields, rest) := scanFields fuel true cs
        (.object fields (stopOf rest), rest)
      else stopped .malformed

/-- Scans the items of an array behind the opening bracket. -/
def scanItems : (fuel : Nat) → (first : Bool) → List Char → List Draft × Rest
  | 0, _, _ => ([], .error .truncated)
  | fuel + 1, first, cs =>
    match scanSeparator ']' first cs with
    | .error why => ([], .error why)
    | .ok (.inr rest) => ([], .ok rest)
    | .ok (.inl cs) =>
      match scanValue fuel cs with
      | (item, .error why) => ([item], .error why)
      | (item, .ok cs) =>
        let (items, rest) := scanItems fuel false cs
        (item :: items, rest)

/-- Scans the fields of an object behind the opening brace. -/
def scanFields : (fuel : Nat) → (first : Bool) → List Char → List (Option String × Draft) × Rest
  | 0, _, _ => ([], .error .truncated)
  | fuel + 1, first, cs =>
    match scanSeparator '\x7d' first cs with
    | .error why => ([], .error why)
    | .ok (.inr rest) => ([], .ok rest)
    | .ok (.inl cs) =>
      match scanKey cs with
      | .error why => ([], .error why)
      | .ok (key, cs) =>
        match scanValue fuel cs with
        | (value, .error why) => ([(key, value)], .error why)
        | (value, .ok cs) =>
          let (fields, rest) := scanFields fuel false cs
          ((key, value) :: fields, rest)

end

/-- The draft of a text, and what the text holds behind its first value. -/
def scan (text : String) : Draft × Rest :=
  let cs := text.toList
  scanValue (2 * cs.length + 1) cs

mutual

/-- The value of a draft without faults. -/
def toJson? : Draft → Option Json
  | .null => some .null
  | .bool b => some (.bool b)
  | .number n => some (.number n)
  | .string s => some (.string s)
  | .unreadable => none
  | .array items none => (itemsToJson? items).map .array
  | .object fields none => (fieldsToJson? fields).map .object
  | .array _ (some _) => none
  | .object _ (some _) => none
  | .stop _ => none

/-- The values of items, if all of them are complete. -/
def itemsToJson? : List Draft → Option (List Json)
  | [] => some []
  | item :: items => do return (← toJson? item) :: (← itemsToJson? items)

/-- The values of fields, if all of them are complete. -/
def fieldsToJson? : List (Option String × Draft) → Option (List (String × Json))
  | [] => some []
  | (key, value) :: fields => do return (← key, ← toJson? value) :: (← fieldsToJson? fields)

end

end Draft

end MiddleEnd
