/-
  Source texts and regions of them. Offsets count bytes of the UTF-8 form, columns count
  characters, and a line ends at a newline.
-/
import MiddleEnd.Number.Overflow
import MiddleEnd.Number.Search

namespace MiddleEnd

/-- A source text, with the file it came from and the number of its first line. -/
structure Document where
  name : Option String
  startLine : UInt32
  text : String
  deriving DecidableEq, Repr

/-- A place in a document; lines and columns are counted from one. -/
structure Position where
  line : Nat
  column : Nat
  offset : Nat
  deriving DecidableEq, Repr

/-! ## Parts of a text -/

namespace Text

/-- What follows the first `n` bytes, if they end with a character. -/
def dropBytes : List Char → Nat → Option (List Char)
  | [], n => if n = 0 then some [] else none
  | c :: cs, n =>
    if n = 0 then some (c :: cs)
    else if n < c.utf8Size then none
    else dropBytes cs (n - c.utf8Size)

/-- The first `n` bytes, if they end with a character. -/
def takeBytes : List Char → Nat → Option (List Char)
  | [], n => if n = 0 then some [] else none
  | c :: cs, n =>
    if n = 0 then some []
    else if n < c.utf8Size then none
    else (takeBytes cs (n - c.utf8Size)).map (c :: ·)

/-- The offsets behind the newlines among characters that start at an offset. -/
def behindNewlines : List Char → (offset : Nat) → List Nat
  | [], _ => []
  | c :: cs, offset =>
    if c = '\n' then (offset + 1) :: behindNewlines cs (offset + 1)
    else behindNewlines cs (offset + c.utf8Size)

end Text

namespace Document

/-- The name a document goes by in a diagnostic. -/
def displayName (d : Document) : String := d.name.getD "<snippet>"

/-- The part of the text between two offsets, unless they are out of order or out of the text or one
    of them lies inside a character. -/
def slice (d : Document) (bounds : Nat × Nat) : Option String :=
  if bounds.2 < bounds.1 then none
  else
    (Text.dropBytes d.text.toList bounds.1).bind fun cs =>
      (Text.takeBytes cs (bounds.2 - bounds.1)).map String.ofList

/-- The offsets at which the lines start. -/
def lineStarts (d : Document) : List Nat := 0 :: Text.behindNewlines d.text.toList 0

/-- The index of the line of an offset: the line that starts there, or the one before the first that
    starts later. -/
def lineIndex (d : Document) (offset : Nat) : Nat :=
  match binarySearch d.lineStarts offset with
  | .hit i => i
  | .miss i => i - 1

/-- The position with a number of lines in front of its line and a number of characters in front of
    it on the line. Of both numbers only the lowest 32 bits count, and the sums have to fit in 32
    bits. -/
def positionAt (d : Document) (offset line column : Nat) : Except Overflow Position := do
  return {
    line := ← sumBelow UInt32.size d.startLine.toNat (line % UInt32.size)
    column := ← sumBelow UInt32.size (column % UInt32.size) 1
    offset }

/-- The position of a byte offset; an offset past the end stands at the end. Where the line up to
    the offset is no part of the text, the column is the first one. -/
def positionOf (d : Document) (offset : Nat) : Except Overflow Position :=
  let line := d.lineIndex offset
  let first := d.lineStarts[line]?.getD 0
  let column := ((d.slice (first, min offset d.text.utf8ByteSize)).map String.length).getD 0
  d.positionAt offset line column

/-- The offsets at which a line starts and ends. The last line ends with the text, any other in
    front of the newline behind which the next one starts. -/
def lineBounds (d : Document) (i : Nat) : Option (Nat × Nat) :=
  d.lineStarts[i]?.map fun first =>
    (first, (d.lineStarts[i + 1]?.map (· - 1)).getD d.text.utf8ByteSize)

/-- The text of a line, by its number. -/
def line? (d : Document) (line : Nat) : Option String :=
  if line < d.startLine.toNat then none
  else (d.lineBounds (line - d.startLine.toNat)).bind d.slice

end Document

/-! ## Regions -/

/-- A region of a document. -/
structure SourceContext where
  document : Document
  offset : UInt64
  length : UInt64
  deriving DecidableEq, Repr

namespace SourceContext

/-- The region of all of a document. -/
def whole (d : Document) : SourceContext := ⟨d, 0, d.text.utf8ByteSize.toUInt64⟩

/-- The position at which the region starts. -/
def start (s : SourceContext) : Except Overflow Position :=
  s.document.positionOf s.offset.toNat

/-- The offset behind the region; offsets have 64 bits. -/
def stopOffset (s : SourceContext) : Except Overflow Nat :=
  sumBelow UInt64.size s.offset.toNat s.length.toNat

/-- The position behind the region. -/
def stop (s : SourceContext) : Except Overflow Position := do
  s.document.positionOf (← s.stopOffset)

/-- The covered part of the text, cut off at its end; nothing if an end of the region does not lie
    between two characters. -/
def text (s : SourceContext) : String :=
  let first := s.offset.toNat
  let past := min (first + s.length.toNat) s.document.text.utf8ByteSize
  (s.document.slice (first, past)).getD ""

end SourceContext

end MiddleEnd
