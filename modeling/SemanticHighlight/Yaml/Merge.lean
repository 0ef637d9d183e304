import SemanticHighlight.Yaml.Node

/-!
# Merges

A mapping takes over the entries of the mappings under its merge keys. The merge keys vanish, and what
they bring stands in front of the other entries, so that these win. A mapping that is merged into
another has carried out its own merges first. From then on the key `=` is a text like any other.
-/

namespace SemanticHighlight.Yaml

abbrev NodeEntry := NodeId × NodeId

abbrev Merging := StateT (Array Node) (Except Fault)

namespace Node

def misfit (n : Node) (activity : Activity) (since : Mark) (what : Text) : Fault :=
  .while_ activity since (.expectedKind what n.kind) n.start

def kindIsNot (n : Node) (what : Text) : Fault := .plain (.expectedKind what n.kind) n.start

def entries (n : Node) : List NodeEntry :=
  match n.content with
  | .mapping entries => entries
  | _ => []

def isMapping (n : Node) : Bool :=
  match n.content with
  | .mapping _ => true
  | _ => false

end Node

namespace Merging

def node (id : NodeId) : Merging Node := return (← get).getD id default

def setEntries (id : NodeId) (entries : List NodeEntry) : Merging Unit :=
  modify fun nodes => nodes.modify id fun n => { n with content := .mapping entries }

/-- Takes the first merge key out of a mapping and says what stands under it. -/
def takeMerge? (id : NodeId) : Merging (Option NodeId) := do
  let nodes ← get
  let entries := (← node id).entries
  let isMerge (e : NodeEntry) : Bool := (nodes.getD e.1 default).tag = .merge
  match entries.find? isMerge with
  | none => return none
  | some e =>
    setEntries id (entries.eraseP isMerge)
    return some e.2

/-- The entries that one merge brings to a mapping: those of a mapping, or of several, the last of
them first. `flatten` carries out the merges of a mapping and gives its entries. -/
def brought (flatten : NodeId → Merging (List NodeEntry)) (id source : NodeId) :
    Merging (List NodeEntry) := do
  let since := (← node id).start
  let n ← node source
  match n.content with
  | .mapping _ => flatten source
  | .sequence items =>
    let each ← items.mapM fun item => do
      let n ← node item
      if !n.isMapping then throw (n.misfit .mapping since "a mapping for merging")
      flatten item
    return each.reverse.flatten
  | .scalar _ => throw (n.misfit .mapping since "a mapping or list of mappings for merging")

/-- The entries that the merges of a mapping bring, of which there are at most `count`. -/
def allBrought (flatten : NodeId → Merging (List NodeEntry)) :
    (count : Nat) → NodeId → Merging (List NodeEntry)
  | 0, _ => return []
  | count + 1, id => do
    match ← takeMerge? id with
    | none => return []
    | some source =>
      let first ← brought flatten id source
      return first ++ (← allBrought flatten count id)

/-- Makes texts of the keys `=` of a mapping. -/
def renameDefaults (entries : List NodeEntry) : Merging Unit :=
  modify fun nodes =>
    entries.foldl (fun nodes e =>
      nodes.modify e.1 fun n => if n.tag = .default then { n with tag := .text } else n) nodes

/-- Carries out the merges of a mapping, which can be nested as deep as there are merges, and gives
its entries. -/
def flattenWithin : (depth : Nat) → NodeId → Merging (List NodeEntry)
  | 0, _ => return []
  | depth + 1, id => do
    let first ← allBrought (flattenWithin depth) (← node id).entries.length id
    let entries := first ++ (← node id).entries
    setEntries id entries
    renameDefaults entries
    return entries

/-- How deep merges can be nested: each takes an entry away. -/
def depthOf (nodes : Array Node) : Nat := nodes.foldl (fun n node => n + node.entries.length) 1

end Merging

end SemanticHighlight.Yaml
