import SemanticHighlight.Position.Basic

/-!
# Ranges

A range runs from a start position up to, and not including, a stop position. That the start is not
after the stop is part of the type, so a range has to be built with `ofEnds?` wherever it is not
known beforehand; cutting and moving ranges needs no check.
-/

namespace SemanticHighlight

structure InvertedRange where
  start : Position
  stop : Position
  deriving DecidableEq, Repr

namespace InvertedRange

def message (e : InvertedRange) : Text :=
  "Range end " ++ e.stop.message ++ " precedes its start " ++ e.start.message

end InvertedRange

structure Range where
  start : Position
  stop : Position
  ordered : start ≤ stop
  deriving DecidableEq, Repr

namespace Range

@[ext] theorem ext {r s : Range} (hstart : r.start = s.start) (hstop : r.stop = s.stop) : r = s := by
  cases r
  cases s
  cases hstart
  cases hstop
  rfl

def ofEnds? (start stop : Position) : Except InvertedRange Range :=
  if h : start ≤ stop then .ok ⟨start, stop, h⟩ else .error ⟨start, stop⟩

def ofCoordinates? (startLine startColumn stopLine stopColumn : Int) :
    Except InvertedRange Range :=
  ofEnds? ⟨startLine, startColumn⟩ ⟨stopLine, stopColumn⟩

/-- Ranges are ordered by start, then by stop. -/
protected def le (r s : Range) : Prop := r.start < s.start ∨ (r.start = s.start ∧ r.stop ≤ s.stop)

protected def lt (r s : Range) : Prop := r.start < s.start ∨ (r.start = s.start ∧ r.stop < s.stop)

instance : LE Range := ⟨Range.le⟩
instance : LT Range := ⟨Range.lt⟩
instance (r s : Range) : Decidable (r ≤ s) := inferInstanceAs (Decidable (_ ∨ _))
instance (r s : Range) : Decidable (r < s) := inferInstanceAs (Decidable (_ ∨ _))

def isSingleLine (r : Range) : Bool := r.start.line == r.stop.line

def isEmpty (r : Range) : Bool := r.start == r.stop

/-- `s` lies within `r`; equal ranges cover each other. -/
def covers (r s : Range) : Bool := decide (r.start ≤ s.start ∧ s.stop ≤ r.stop)

def contains (r s : Range) : Bool := r != s && r.covers s

/-- The ranges meet in more than an end point. -/
def intersects (r s : Range) : Bool := decide (r.start < s.stop ∧ s.start < r.stop)

def Holds (r : Range) (p : Position) : Prop := r.start ≤ p ∧ p < r.stop

instance (r : Range) (p : Position) : Decidable (r.Holds p) := inferInstanceAs (Decidable (_ ∧ _))

def before (r s : Range) : Option Range :=
  if h : r.start < s.start then
    some ⟨r.start, min r.stop s.start, Position.le_min r.ordered (Position.le_of_lt h)⟩
  else none

def after (r s : Range) : Option Range :=
  if h : s.stop < r.stop then
    some ⟨max r.start s.stop, r.stop, Position.max_le r.ordered (Position.le_of_lt h)⟩
  else none

/-- The range of an embedded text in the coordinates of the document around it. -/
def translate (r : Range) (origin : Position) : Range :=
  ⟨r.start.translate origin, r.stop.translate origin,
    Position.translate_le_translate origin r.ordered⟩

def message (r : Range) : Text := "[" ++ r.start.message ++ "-" ++ r.stop.message ++ "]"

end Range

end SemanticHighlight
