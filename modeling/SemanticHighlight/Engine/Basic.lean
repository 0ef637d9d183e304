import SemanticHighlight.Capture.Basic
import SemanticHighlight.Position.LineIndex

/-!
# Grammar engines

Parsing and matching are a service. A node source finds nodes in the bytes of a text and speaks of
rows and byte columns; an engine reports captures with their texts, in the coordinates of editors.
`Engine.ofNodes` makes an engine of a node source. Only there can a range come out inverted, if the
source reports a node that stops before it starts.
-/

namespace SemanticHighlight

/-- A stretch of a text as a node source reports it. -/
structure Node where
  start : Point
  stop : Point
  startByte : Nat
  stopByte : Nat
  deriving DecidableEq, Repr

/-- A match before its nodes are turned into captures. -/
structure NodeMatch where
  pattern : Nat
  captures : List (Text × Node)
  settings : List (Text × Option Text)
  deriving DecidableEq, Repr

/-- Finds nodes in a text that is given with its bytes. -/
structure NodeSource (Grammar Query : Type) where
  parses : Grammar → Text → Bool
  search : Query → Text → Octets → List NodeMatch

/-- Whether a text gives a tree, and what a query finds in it. -/
structure Engine (Grammar Query : Type) where
  parses : Grammar → Text → Bool
  search : Query → Text → Except InvertedRange (List Match)

namespace Node

/-- The bytes of a node; none if it stops before it starts. -/
def bytes (source : Octets) (node : Node) : Octets :=
  (source.drop node.startByte).take (node.stopByte - node.startByte)

def capture (index : LineIndex) (source : Octets) (name : Text) (node : Node) :
    Except InvertedRange Capture := do
  let range ← Range.ofEnds? (index.ofPoint node.start) (index.ofPoint node.stop)
  return ⟨name, range, Text.decodeLenient (node.bytes source)⟩

end Node

def NodeMatch.capture (index : LineIndex) (source : Octets) (found : NodeMatch) :
    Except InvertedRange Match := do
  let captures ← found.captures.mapM fun named => named.2.capture index source named.1
  return ⟨found.pattern, captures, found.settings⟩

def Engine.ofNodes {Grammar Query : Type} (source : NodeSource Grammar Query) :
    Engine Grammar Query where
  parses := source.parses
  search query t :=
    let bytes := t.encodeUtf8
    (source.search query t bytes).mapM (NodeMatch.capture (LineIndex.ofText t) bytes)

end SemanticHighlight
