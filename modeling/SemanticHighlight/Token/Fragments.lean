import SemanticHighlight.Token.Containment

/-!
# One line at a time

Renderers take tokens that stay on one line. A token over several lines is cut into one fragment per
line: the first from its start to the end of the line, those in the middle over their whole lines,
the last from the beginning of its line to the end of the token.
-/

namespace SemanticHighlight.Token

/-- A column past the end of any line, since the length of the line is not known here. Renderers do
not get along with the greatest number there is. -/
def lineEnd : Int := 100000

def wholeLine (line : Int) : Range :=
  have nonneg : 0 ≤ lineEnd := by decide
  ⟨⟨line, 0⟩, ⟨line, lineEnd⟩, Or.inr ⟨rfl, nonneg⟩⟩

def linesBetween (first last : Int) : List Int :=
  (List.range (last - first - 1).toNat).map fun n : Nat => first + 1 + n

/-- Cuts a token into single-line fragments. A start beyond `lineEnd` cannot be cut. -/
def split (t : Token) : Except InvertedRange (List Token) :=
  let start := t.range.start
  let stop := t.range.stop
  if start.line = stop.line then .ok [t]
  else do
    let head ← Range.ofEnds? start ⟨start.line, lineEnd⟩
    let middle := (linesBetween start.line stop.line).map wholeLine
    let tail ← Range.ofEnds? ⟨stop.line, 0⟩ stop
    return (head :: middle ++ [tail]).map t.withRange

/-- Single-line tokens, each region given to the innermost token that holds it. -/
def normalize (tokens : List Token) : Except InvertedRange (List Token) := do
  let fragments ← (resolveContainment (deduplicate tokens)).mapM split
  return fragments.flatten

end SemanticHighlight.Token
