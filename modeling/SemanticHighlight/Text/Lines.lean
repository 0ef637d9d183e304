import SemanticHighlight.Text.Basic

/-!
# Line ends

Only a line feed ends a line of a document; a carriage return before it stays part of the line.
Files are read with all three conventions of line ends made one.
-/

namespace SemanticHighlight.Text

/-- The lines of a text; a final line feed is followed by an empty line. -/
def lines (t : Text) : List Text := splitOn CodePoint.newline t

/-- Writes every line end, `\r\n` and a lone `\r` included, as a line feed. -/
def unifyLineEnds : Text → Text
  | [] => []
  | c :: rest =>
    if c.val = 13 then
      match rest with
      | [] => [CodePoint.newline]
      | d :: others =>
        CodePoint.newline :: if d.val = 10 then unifyLineEnds others else unifyLineEnds (d :: others)
    else c :: unifyLineEnds rest
termination_by t => t.length

end SemanticHighlight.Text
