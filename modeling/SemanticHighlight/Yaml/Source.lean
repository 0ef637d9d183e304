import SemanticHighlight.Text.Pieces
import SemanticHighlight.Yaml.Basic
import SemanticHighlight.Yaml.Complaint

/-!
# The source of a document

A document is read from its file in pieces, the first two at once, and each piece is looked through
for characters that no document may hold. Whatever is wrong with a piece comes to light only when the
reader has got that far.
-/

namespace SemanticHighlight.Yaml

/-- A text that can be read, and why nothing can be read behind it if it does not end there. -/
structure Source where
  text : Text
  beyond : Option Fault

namespace Source

/-- The pieces in front of one that holds a forbidden character. The first piece begins at character
number `index`. -/
def accepted (index : Nat) : List Text → Source
  | [] => ⟨[], none⟩
  | piece :: rest =>
    match piece.zipIdx.find? fun (c, _) => !isAllowed c with
    | some (c, i) => ⟨[], some (.complaint (.character c (index + i)))⟩
    | none =>
      let source := accepted (index + piece.length) rest
      { source with text := piece ++ source.text }

def ofBytes (bytes : Octets) : Source :=
  match Text.pieces bytes with
  | (first :: second :: rest, e) =>
    let source := accepted 0 ((first ++ second) :: rest)
    { source with beyond := source.beyond.or (e.map .undecodable) }
  | (_, some e) => ⟨[], some (.undecodable e)⟩
  | (pieces, none) => accepted 0 pieces

end Source

end SemanticHighlight.Yaml
