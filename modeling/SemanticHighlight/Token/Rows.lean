import SemanticHighlight.Position.LineIndex
import SemanticHighlight.Text.Quoted
import SemanticHighlight.Token.Basic

/-!
# Tokens for reading

The command line shows every token with the text it covers: as a row with positions counted from
one, or as a record with positions counted from zero.
-/

namespace SemanticHighlight.Token

/-- The column at which a token stops, no later than its line. -/
def visibleStop (index : LineIndex) (t : Token) : Int :=
  min t.range.stop.column (index.line t.range.start.line).utf16Length

def visibleText (index : LineIndex) (t : Token) : Text :=
  (index.line t.range.start.line).sliceUnits t.range.start.column (visibleStop index t)

def visible (index : LineIndex) (tokens : List Token) : List Token :=
  tokens.filter fun t => decide (t.range.start.column < visibleStop index t)

def row (index : LineIndex) (t : Token) : Text :=
  let start := t.range.start
  let position := Text.ofInt (start.line + 1) ++ ":" ++ Text.ofInt (start.column + 1) ++ "-" ++
    Text.ofInt (visibleStop index t + 1)
  position.padRight 16 ++ " " ++ (Text.join "." (t.type :: t.modifiers)).padRight 32 ++ " " ++
    (visibleText index t).quoted

structure Record where
  line : Int
  start : Int
  stop : Int
  type : Text
  modifiers : List Text
  text : Text
  deriving DecidableEq, Repr

def record (index : LineIndex) (t : Token) : Record :=
  ⟨t.range.start.line, t.range.start.column, visibleStop index t, t.type, t.modifiers,
    visibleText index t⟩

end SemanticHighlight.Token
