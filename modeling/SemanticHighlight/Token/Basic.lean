import SemanticHighlight.Position.Range

/-!
# Tokens

A token is a range of a document together with what it is: a type and modifiers from a legend. An
injection is a region of a document that was read with the grammar of another language, with the
tokens found there in the coordinates of the document.
-/

namespace SemanticHighlight

structure Token where
  range : Range
  type : Text
  modifiers : List Text
  deriving DecidableEq, Repr

structure Injection where
  lang : Text
  range : Range
  tokens : List Token
  deriving DecidableEq, Repr

namespace Token

def withRange (t : Token) (r : Range) : Token := { t with range := r }

def translate (t : Token) (origin : Position) : Token := t.withRange (t.range.translate origin)

def Covers (t : Token) (p : Position) : Prop := t.range.Holds p

instance (t : Token) (p : Position) : Decidable (t.Covers p) :=
  inferInstanceAs (Decidable (t.range.Holds p))

def startsNotAfter (s t : Token) : Bool := decide (s.range.start ≤ t.range.start)

/-- Ascending by start; tokens with the same start keep their order. -/
def sort (tokens : List Token) : List Token := tokens.mergeSort startsNotAfter

end Token

end SemanticHighlight
