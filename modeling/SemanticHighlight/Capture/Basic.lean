import SemanticHighlight.Position.Range

/-!
# Captures

A query reports matches; each match holds named captures, in the order of the engine, and the
settings of its pattern.
-/

namespace SemanticHighlight

structure Capture where
  name : Text
  range : Range
  text : Text
  deriving DecidableEq, Repr

structure Match where
  pattern : Nat
  captures : List Capture
  settings : List (Text × Option Text)
  deriving DecidableEq, Repr

namespace Match

def find? (m : Match) (name : Text) : Option Capture := m.captures.find? fun c => c.name = name

/-- The value of a setting; a setting without a value counts as none. -/
def setting? (m : Match) (key : Text) : Option Text := (m.settings.lookup key).join

end Match

end SemanticHighlight
