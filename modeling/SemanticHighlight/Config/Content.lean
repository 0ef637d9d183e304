import SemanticHighlight.Config.Value

/-!
# The content of a document

A document is a value together with the knots in it: collections that can be reached from themselves
or that lead to such collections. Inside a value every knot is given by its number.
-/

namespace SemanticHighlight

structure Content where
  root : Value
  /-- The parts of each knot, in which all knots are numbers again. -/
  knots : List Value
  deriving Repr

namespace Content

/-- A document in which nothing contains itself. -/
def ofValue (v : Value) : Content := ⟨v, []⟩

/-- A value as it is at first sight: a knot shows its parts. -/
def view (c : Content) : Value → Value
  | .knot brackets number => c.knots.getD number (.knot brackets number)
  | v => v

/-- A value in which each knot is opened, unless it stands inside of itself. No more than `budget`
knots can be open at a time. -/
def unfoldWith (c : Content) : (budget : Nat) → (opened : List Nat) → Value → Value
  | 0, _, v => v
  | budget + 1, opened, v =>
    v.untie fun brackets number =>
      if opened.contains number then .knot brackets number
      else c.unfoldWith budget (number :: opened) (c.view (.knot brackets number))

def unfold (c : Content) (v : Value) : Value :=
  if c.knots.isEmpty then v else c.unfoldWith (c.knots.length + 1) [] v

def written (c : Content) : Value := c.unfold c.root

end Content

end SemanticHighlight
