import SemanticHighlight.Token.Basic

/-!
# Merging injections

The grammar of an injected region owns the region: what tokens of the surrounding language cover of
it is cut away. A region in which nothing was found leaves the surrounding tokens as they are.
-/

namespace SemanticHighlight.Token

/-- What is left of a token outside `region`. A token inside the region leaves nothing, one that
only touches it stays whole. -/
def clip (t : Token) (region : Range) : List Token :=
  if region.covers t.range then []
  else if !t.range.intersects region then [t]
  else ((t.range.before region).toList ++ (t.range.after region).toList).map t.withRange

/-- The tokens outside the regions of all injections that have tokens. -/
def clipAll (tokens : List Token) (injections : List Injection) : List Token :=
  injections.foldl
    (fun kept injection =>
      if injection.tokens = [] then kept else kept.flatMap fun t => t.clip injection.range)
    tokens

/-- The surviving tokens followed by those of the injections, in the order of discovery. -/
def merge (tokens : List Token) (injections : List Injection) : List Token :=
  clipAll tokens injections ++ injections.flatMap Injection.tokens

@[simp] theorem merge_nil (tokens : List Token) : merge tokens [] = tokens := List.append_nil tokens

end SemanticHighlight.Token
