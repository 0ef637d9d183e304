import SemanticHighlight.Json.Basic
import SemanticHighlight.Number.Shortest
import SemanticHighlight.Text.Utf16

/-!
# Writing JSON

Output is ASCII: every other character is escaped by its UTF-16 units. A value is written on one
line, or with every item and member on a line of its own.
-/

namespace SemanticHighlight.Json

def escaped (c : CodePoint) : Text :=
  if c = '"' then "\\\""
  else if c = '\\' then "\\\\"
  else if c.val = 0xA then "\\n"
  else if c.val = 0xD then "\\r"
  else if c.val = 0x9 then "\\t"
  else if c.val = 0x8 then "\\b"
  else if c.val = 0xC then "\\f"
  else if 0x20 ≤ c.val ∧ c.val < 0x7F then [c]
  else (Text.unitsOf c).flatMap fun u => "\\u" ++ Text.ofHex 4 u.val

def quoted (t : Text) : Text := "\"" ++ t.flatMap escaped ++ "\""

def numeral : Binary64 → Text
  | .nan => "NaN"
  | .infinite false => "Infinity"
  | .infinite true => "-Infinity"
  | x => x.toText

/-- What stands between the parts of a list or an object. -/
structure Layout where
  /-- White space after an opening bracket, and before every further part; the number says how deep
  the part stands. -/
  opening : Nat → Text
  between : Nat → Text
  closing : Nat → Text

namespace Layout

def oneLine : Layout := ⟨fun _ => [], fun _ => " ", fun _ => []⟩

def indented (width : Nat) : Layout :=
  let line (depth : Nat) : Text := "\n" ++ List.replicate (width * depth) (' ' : CodePoint)
  ⟨line, line, fun depth => line (depth - 1)⟩

def bracket (layout : Layout) (depth : Nat) (opening closing : Text) : List Text → Text
  | [] => opening ++ closing
  | parts =>
    opening ++ layout.opening depth ++ Text.join ("," ++ layout.between depth) parts ++
      layout.closing depth ++ closing

end Layout

mutual

/-- A value whose parts, if it has any, stand at `depth`. -/
def renderAt (layout : Layout) (depth : Nat) : Json → Text
  | null => "null"
  | bool true => "true"
  | bool false => "false"
  | int i => Text.ofInt i
  | real x => numeral x
  | text t => quoted t
  | list xs => layout.bracket depth "[" "]" (renderItems layout depth xs)
  | object ms => layout.bracket depth "\x7b" "\x7d" (renderMembers layout depth ms)

def renderItems (layout : Layout) (depth : Nat) : List Json → List Text
  | [] => []
  | x :: xs => renderAt layout (depth + 1) x :: renderItems layout depth xs

def renderMembers (layout : Layout) (depth : Nat) : List (Text × Json) → List Text
  | [] => []
  | (name, x) :: ms =>
    (quoted name ++ ": " ++ renderAt layout (depth + 1) x) :: renderMembers layout depth ms

end

def render (layout : Layout) (j : Json) : Text := renderAt layout 1 j

end SemanticHighlight.Json
