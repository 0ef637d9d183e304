import SemanticHighlight.Bisection
import SemanticHighlight.Position.Range
import SemanticHighlight.Text.Lines
import SemanticHighlight.Text.Utf16
import SemanticHighlight.Text.Utf8

/-!
# Positions in a text

A grammar engine speaks of rows and byte columns, a text of character offsets, an editor of lines
and UTF-16 columns. A line index turns the first two into the third.
-/

namespace SemanticHighlight

/-- A row and a column in bytes, as a grammar engine reports them. -/
structure Point where
  row : Int
  column : Int
  deriving DecidableEq, Repr

/-- A text with its lines and the offset at which each of them starts. -/
structure LineIndex where
  text : Text
  lines : Array Text
  starts : Array Nat

structure OutsideText where
  offset : Int
  length : Nat
  deriving DecidableEq, Repr

namespace OutsideText

def message (e : OutsideText) : Text :=
  "Offset " ++ Text.ofInt e.offset ++ " is outside text range [0, " ++ Text.ofNat e.length ++ "]"

end OutsideText

inductive SpanError where
  | outside (e : OutsideText)
  | inverted (e : InvertedRange)
  deriving DecidableEq, Repr

namespace LineIndex

/-- Where each line starts, the first one at `offset`. -/
def startsFrom (offset : Nat) : List Text → List Nat
  | [] => []
  | line :: rest => offset :: startsFrom (offset + line.length + 1) rest

def ofText (t : Text) : LineIndex :=
  ⟨t, t.lines.toArray, (startsFrom 0 t.lines).toArray⟩

def lineCount (index : LineIndex) : Nat := index.lines.size

/-- The line numbered `row`, empty outside the text. -/
def line (index : LineIndex) (row : Int) : Text :=
  if row < 0 then [] else index.lines[row.toNat]?.getD []

/-- The byte offset and the UTF-16 column of every character boundary of a line, from the boundary
at `bytes` and `units` on. -/
def boundariesFrom (bytes units : Nat) : Text → List (Nat × Nat)
  | [] => [(bytes, units)]
  | c :: rest =>
    (bytes, units) :: boundariesFrom (bytes + Text.utf8Width c) (units + Text.utf16Width c) rest

/-- The UTF-16 column of a byte column, looked up among the character boundaries of the line: inside
a character it is that of its start, past the line that of its end. A negative byte column is found
nowhere and gives the end of the line. -/
def tableColumn (line : Text) (byteColumn : Int) : Nat :=
  let boundaries := (boundariesFrom 0 0 line).toArray
  match Bisection.boundary (fun entry => decide ((entry.1 : Int) ≤ byteColumn)) boundaries with
  | 0 => (boundaries.back?.map Prod.snd).getD 0
  | n + 1 => (boundaries[n]?.map Prod.snd).getD 0

/-- The UTF-16 column of a byte column; where every character is one byte the two agree. -/
def columnOf (line : Text) (byteColumn : Int) : Int :=
  if line.isAscii then min byteColumn line.length else tableColumn line byteColumn

def ofPoint (index : LineIndex) (p : Point) : Position :=
  ⟨p.row, columnOf (index.line p.row) p.column⟩

def ofOffset (index : LineIndex) (offset : Int) : Except OutsideText Position :=
  if offset < 0 ∨ index.text.length < offset then .error ⟨offset, index.text.length⟩
  else
    let row := Bisection.boundary (fun start : Nat => decide ((start : Int) ≤ offset)) index.starts - 1
    let before : Text := (index.line row).take (offset.toNat - index.starts[row]?.getD 0)
    .ok ⟨row, before.utf16Length⟩

def rangeOf (index : LineIndex) (start stop : Int) : Except SpanError Range := do
  let first ← (index.ofOffset start).mapError .outside
  let last ← (index.ofOffset stop).mapError .outside
  (Range.ofEnds? first last).mapError .inverted

end LineIndex

end SemanticHighlight
