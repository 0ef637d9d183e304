import SemanticHighlight.Bisection
import SemanticHighlight.Token.Basic

/-!
# Containment

Captures of one pass may nest: a string holds an escape sequence. Each region then belongs to the
innermost token, so a token that strictly contains others keeps only the gaps they leave. One walk
per token over what it contains settles any depth of nesting, because the walk never goes back: a
token inside another contained one cannot reopen a gap.
-/

namespace SemanticHighlight.Token

def deduplicateAfter (seen : List Range) : List Token → List Token
  | [] => []
  | t :: rest =>
    if t.range ∈ seen then deduplicateAfter seen rest
    else t :: deduplicateAfter (t.range :: seen) rest

/-- Keeps only the first token of each range. -/
def deduplicate (tokens : List Token) : List Token := deduplicateAfter [] tokens

/-- What lies between `current` and `stop` outside the given ranges, which come in order of their
starts. -/
def gaps (current stop : Position) : List Range → List Range
  | [] => if h : current < stop then [⟨current, stop, Position.le_of_lt h⟩] else []
  | r :: rest =>
    let following := gaps (max current r.stop) stop rest
    if h : current < r.start then ⟨current, r.start, Position.le_of_lt h⟩ :: following
    else following

/-- What is left of a token that contains the given ranges: all of it if there are none. -/
def without (t : Token) (inner : List Range) : List Token :=
  if inner = [] then [t] else (gaps t.range.start t.range.stop inner).map t.withRange

/-- The ranges strictly contained in `outer`, of tokens in ascending order of their starts. Only
those that start inside `outer`, found by bisection, are looked at. -/
def containedIn (byStart : Array Token) (outer : Range) : List Range :=
  let first := Bisection.boundary (fun t => decide (t.range.start < outer.start)) byStart
  let last := Bisection.boundary (fun t => decide (t.range.start ≤ outer.stop)) byStart
  ((byStart.extract first last).toList.map Token.range).filter fun r =>
    decide (r.stop ≤ outer.stop) && r != outer

/-- Replaces every token that strictly contains others by its gaps. -/
def resolveContainment (tokens : List Token) : List Token :=
  let byStart := (sort tokens).toArray
  tokens.flatMap fun t => t.without (containedIn byStart t.range)

end SemanticHighlight.Token
