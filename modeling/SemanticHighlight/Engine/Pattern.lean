import SemanticHighlight.Engine.Basic
import SemanticHighlight.Json.Reader
import SemanticHighlight.Language.LoadFailure

/-!
# Literal patterns

A query of literal patterns is a JSON list. A pattern finds the whole text, runs of certain bytes,
texts that follow one another, or nodes that it lists itself. What it finds is a row of groups,
stretches of the bytes of the text, to which its captures give names. Patterns are tried in order
and each reports from left to right.
-/

namespace SemanticHighlight

inductive Shape where
  | nodes (groups : List Node)
  | whole
  | run (bytes : Octets)
  | parts (texts : List Octets) (greedy : Bool)
  deriving DecidableEq, Repr

structure Pattern where
  shape : Shape
  captures : List (Nat × Text)
  settings : List (Text × Option Text)
  deriving DecidableEq, Repr

abbrev PatternQuery := List Pattern

/-- A stretch of bytes, the stop not included. -/
structure Stretch where
  start : Nat
  stop : Nat
  deriving DecidableEq, Repr

namespace Stretch

def point (source : Octets) (offset : Nat) : Point :=
  let before := source.take offset
  ⟨before.count 10, (before.reverse.takeWhile (· != 10)).length⟩

def node (source : Octets) (s : Stretch) : Node :=
  ⟨point source s.start, point source s.stop, s.start, s.stop⟩

end Stretch

namespace Shape

/-- The maximal runs of bytes that `inside` holds of, from `position` on; a run may be open. -/
def runs (inside : UInt8 → Bool) (position : Nat) (opened : Option Nat) : Octets → List Stretch
  | [] => (opened.map fun start => ⟨start, position⟩).toList
  | b :: rest =>
    if inside b then runs inside (position + 1) (some (opened.getD position)) rest
    else
      (opened.map fun start => ⟨start, position⟩).toList ++ runs inside (position + 1) none rest

def occurrences (needle : Octets) (position : Nat) (source : Octets) : List Nat :=
  (if needle.isPrefixOf source then [position] else []) ++
    match source with
    | [] => []
    | _ :: rest => occurrences needle (position + 1) rest

/-- The parts of a match after the first, each from the end of the one before it. -/
def follow (source : Octets) (greedy : Bool) (position : Nat) : List Octets → Option (List Stretch)
  | [] => some []
  | part :: rest => do
    let places := occurrences part position (source.drop position)
    let start ← if greedy ∧ rest = [] then places.getLast? else places.head?
    let stop := start + part.length
    let others ← follow source greedy stop rest
    return ⟨start, stop⟩ :: others

/-- All of a match and what lies between its parts. -/
def groupsOfParts (found : List Stretch) : List Stretch :=
  match found.head?, found.getLast? with
  | some first, some last =>
    ⟨first.start, last.stop⟩ ::
      (found.zip found.tail).map fun (left, right) => ⟨left.stop, right.start⟩
  | _, _ => []

/-- The matches of parts from `position` on; each leaves less to search, which `fuel` counts. -/
def matchesOfParts (source : Octets) (texts : List Octets) (greedy : Bool) :
    (fuel : Nat) → (position : Nat) → List (List Stretch)
  | 0, _ => []
  | fuel + 1, position =>
    let found := do
      let first ← texts.head?
      let start ← (occurrences first position (source.drop position)).head?
      let stop := start + first.length
      let others ← follow source greedy stop texts.tail
      return (⟨start, stop⟩ :: others : List Stretch)
    match found with
    | none => []
    | some found =>
      groupsOfParts found ::
        matchesOfParts source texts greedy fuel ((found.getLast?.map Stretch.stop).getD position)

def groups (source : Octets) : Shape → List (List Node)
  | nodes groups => [groups]
  | whole => [[Stretch.node source ⟨0, source.length⟩]]
  | run bytes => (runs (bytes.contains ·) 0 none source).map fun s => [s.node source]
  | parts texts greedy =>
    (matchesOfParts source texts greedy (source.length + 1) 0).map fun found =>
      found.map (Stretch.node source)

end Shape

namespace Pattern

/-- The named groups of a match: names in the order in which they are first listed, and under each
name its groups in the order listed. -/
def named (captures : List (Nat × Text)) (groups : List Node) : List (Text × Node) :=
  let names := (captures.map Prod.snd).foldl
    (fun (known : List Text) name => if name ∈ known then known else known ++ [name]) []
  names.flatMap fun name =>
    captures.filterMap fun (group, n) =>
      if n = name then groups[group]?.map fun node => (name, node) else none

def search (source : Octets) (index : Nat) (p : Pattern) : List NodeMatch :=
  (p.shape.groups source).map fun groups => ⟨index, named p.captures groups, p.settings⟩

def offset (j : Json) : Nat := (j.int?.getD 0).toNat

def nodeOfJson (j : Json) : Node :=
  let at_ (i : Nat) := (j.items[i]?.getD .null)
  let coordinate (i : Nat) := (at_ i).int?.getD 0
  ⟨⟨coordinate 0, coordinate 1⟩, ⟨coordinate 2, coordinate 3⟩, offset (at_ 4), offset (at_ 5)⟩

def bytesOfJson (j : Json) : Octets := (j.text?.getD []).encodeUtf8

/-- How a pattern finds its groups; the first of the four keys that it has decides. -/
def shapeOfJson? (j : Json) : Option Shape :=
  match j.field? "nodes", j.field? "whole", j.field? "run", j.field? "parts" with
  | some nodes, _, _, _ => some (.nodes (nodes.items.map nodeOfJson))
  | none, some _, _, _ => some .whole
  | none, none, some run, _ => some (.run (bytesOfJson run))
  | none, none, none, some parts =>
    let greedy := ((j.field? "greedy").bind Json.bool?).getD false
    some (.parts (parts.items.map bytesOfJson) greedy)
  | none, none, none, none => none

def captureOfJson? (j : Json) : Option (Nat × Text) :=
  match j.items with
  | [group, name] => name.text?.map fun name => (offset group, name)
  | _ => none

def ofJson? (j : Json) : Option Pattern := do
  let shape ← shapeOfJson? j
  let captures := ((j.field? "captures").map Json.items).getD []
  let settings := ((j.field? "set").map Json.members).getD []
  return ⟨shape, captures.filterMap captureOfJson?, settings.map fun (key, value) => (key, value.text?)⟩

end Pattern

namespace PatternQuery

def ofItems? (index : Nat) : List Json → Except QueryProblem PatternQuery
  | [] => .ok []
  | item :: rest =>
    match Pattern.ofJson? item with
    | none => .error (.badPattern index)
    | some pattern => (pattern :: ·) <$> ofItems? (index + 1) rest

def compile (t : Text) : Except QueryProblem PatternQuery :=
  match Json.read? t with
  | some (.list items) => ofItems? 0 items
  | _ => .error .notAList

def search (query : PatternQuery) (source : Octets) : List NodeMatch :=
  query.zipIdx.flatMap fun (pattern, index) => pattern.search source index

end PatternQuery

end SemanticHighlight
