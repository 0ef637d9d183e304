import SemanticHighlight.Position.LineIndex
import SemanticHighlight.Token.Basic
import SemanticHighlight.Token.Legend

/-!
# The relative stream

A language server sends tokens as whole numbers, five for each: how many lines it starts below the
token before, how many columns to the right of it (from the beginning of the line if that is another
line), its length, the place of its type and the bits of its modifiers. Tokens without a visible
length are left out.
-/

namespace SemanticHighlight.Token

structure UnknownType where
  type : Text
  deriving DecidableEq, Repr

/-- The column at which a token visibly stops, which a line that is known may cut short. -/
def clampedStop (index : Option LineIndex) (t : Token) : Int :=
  match index with
  | some index =>
    if t.range.start.line < index.lineCount then
      min t.range.stop.column (index.line t.range.start.line).utf16Length
    else t.range.stop.column
  | none => t.range.stop.column

def visibleLength (index : Option LineIndex) (t : Token) : Int :=
  clampedStop index t - t.range.start.column

/-- The numbers of tokens that follow one that started at `previous`. -/
def encodeAfter (legend : Legend) (index : Option LineIndex) (previous : Position) :
    List Token → Except UnknownType (List Int)
  | [] => .ok []
  | t :: rest =>
    let start := t.range.start
    let length := visibleLength index t
    if length ≤ 0 then encodeAfter legend index previous rest
    else do
      let deltaLine := start.line - previous.line
      let deltaStart := if deltaLine = 0 then start.column - previous.column else start.column
      let some typeIndex := legend.typeIndex? t.type | .error ⟨t.type⟩
      let following ← encodeAfter legend index start rest
      return deltaLine :: deltaStart :: length :: (typeIndex : Int) ::
        (legend.modifierMask t.modifiers : Int) :: following

def encode (legend : Legend) (index : Option LineIndex) (tokens : List Token) :
    Except UnknownType (List Int) :=
  encodeAfter legend index ⟨0, 0⟩ tokens

end SemanticHighlight.Token
