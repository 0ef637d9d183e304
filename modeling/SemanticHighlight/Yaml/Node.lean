import SemanticHighlight.Yaml.Lexer
import SemanticHighlight.Yaml.Tag

/-!
# Nodes

A document is made of tagged nodes, which refer to each other by number. An alias stands for the node
that bears its anchor; the node need not be complete by then, so that a collection can be a part of
itself. No anchor may be used twice. Of a stream of documents only the first is read, and there may be
no other.
-/

namespace SemanticHighlight.Yaml

abbrev NodeId := Nat

inductive NodeContent where
  | scalar (t : Text)
  | sequence (items : List NodeId)
  | mapping (entries : List (NodeId × NodeId))
  deriving DecidableEq, Repr

def NodeContent.kind : NodeContent → Text
  | scalar _ => "scalar"
  | sequence _ => "sequence"
  | mapping _ => "mapping"

structure Node where
  start : Mark
  tag : Tag
  content : NodeContent
  deriving DecidableEq, Repr

namespace Node

/-- What an absent node stands for. -/
def empty (start : Mark) : Node := ⟨start, .null, .scalar []⟩

instance : Inhabited Node := ⟨empty ⟨0, 0⟩⟩

def kind (n : Node) : Text := n.content.kind

end Node

/-- Nodes by their numbers, and the one that the others are parts of. -/
structure NodeGraph where
  nodes : Array Node
  root : NodeId
  deriving Repr

/-- What a node may be told in front of its content. -/
structure Properties where
  start : Mark
  anchor : Option Text
  /-- The tag in full. -/
  tag : Option Text

namespace Properties

/-- The tag of a scalar; without one, and if it was not quoted, its text decides. -/
def scalarTag (p : Properties) (plain : Bool) (t : Text) : Tag :=
  match p.tag with
  | none => if plain then Tag.ofPlain t else .text
  | some name => if name = "!" then Tag.ofPlain t else Tag.ofText name

def collectionTag (p : Properties) (usual : Tag) : Tag :=
  match p.tag with
  | none => usual
  | some name => if name = "!" then usual else Tag.ofText name

end Properties

structure Anchored where
  name : Text
  start : Mark
  node : NodeId

/-- What is left to read, and what has been read: nodes, some of them with anchors. -/
structure Composition where
  lexemes : List Placed
  /-- What comes to light behind the last lexeme. -/
  fault : Fault
  handles : List (Text × Text)
  anchors : List Anchored := []
  nodes : Array Node := #[]
  /-- How many collections are open. -/
  depth : Nat := 0
  /-- How many may be open at a time. -/
  limit : Nat

abbrev Composing := StateT Composition (Except Fault)

namespace Composing

def peek : Composing Placed := do
  match (← get).lexemes with
  | [] => throw (← get).fault
  | l :: _ => return l

def take : Composing Placed := do
  let l ← peek
  modify fun s => { s with lexemes := s.lexemes.drop 1 }
  return l

def isNext (ls : List Lexeme) : Composing Bool := return ls.contains (← peek).lexeme

def skip? (l : Lexeme) : Composing Bool := do
  if ← isNext [l] then
    let _ ← take
    return true
  return false

def add (n : Node) : Composing NodeId := do
  let s ← get
  set { s with nodes := s.nodes.push n }
  return s.nodes.size

/-- A new node with its anchor, which may be used once only. -/
def claim (p : Properties) (n : Node) : Composing NodeId := do
  match p.anchor with
  | none => add n
  | some name =>
    match (← get).anchors.find? fun a => a.name = name with
    | some first => throw (.while_ (.firstAnchor name) first.start .secondAnchor p.start)
    | none =>
      let id ← add n
      modify fun s => { s with anchors := ⟨name, p.start, id⟩ :: s.anchors }
      return id

/-- Reads the parts of a collection, which is open for so long. -/
def within {α : Type} (parts : Composing α) : Composing α := do
  let { depth, limit, .. } ← get
  if limit ≤ depth then throw .endless
  modify fun s => { s with depth := depth + 1 }
  let result ← parts
  modify fun s => { s with depth }
  return result

/-- A node whose parts are read when it already has its anchor. -/
def branch (p : Properties) (tag : Tag) (parts : Composing NodeContent) : Composing NodeId := do
  let id ← claim p ⟨p.start, tag, .sequence []⟩
  let content ← within parts
  modify fun s => { s with nodes := s.nodes.modify id fun n => { n with content } }
  return id

def fullTag (start place : Mark) (name : TagName) : Composing Text := do
  match name.handle with
  | none => return name.suffix
  | some handle =>
    match (← get).handles.lookup handle with
    | some expansion => return expansion ++ name.suffix
    | none => throw (.while_ .node start (.undefinedHandle handle) place)

def anchor? : Composing (Option Text) := do
  match (← peek).lexeme with
  | .anchor name => let _ ← take; return some name
  | _ => return none

def tag? : Composing (Option (Mark × TagName)) := do
  let l ← peek
  match l.lexeme with
  | .tag name => let _ ← take; return some (l.start, name)
  | _ => return none

def properties : Composing Properties := do
  let start := (← peek).start
  let first ← anchor?
  let tag ← tag?
  let second ← if first.isNone && tag.isSome then anchor? else pure none
  let tag ← tag.mapM fun (place, name) => fullTag start place name
  return ⟨start, first.or second, tag⟩

def unlessNext (ends : List Lexeme) (absent : Mark) (node : Composing NodeId) :
    Composing NodeId := do
  if ← isNext ends then add (.empty absent) else node

def aliased (name : Text) (place : Mark) : Composing NodeId := do
  match (← get).anchors.find? fun a => a.name = name with
  | some anchored => return anchored.node
  | none => throw (.plain (.undefinedAlias name) place)

/-- The value behind a key; where there is none, what comes next tells its place. -/
def valueBehind (ends : List Lexeme) (node : Composing NodeId) : Composing NodeId := do
  let next ← peek
  if ← skip? .value then unlessNext ends next.stop node else add (.empty next.start)

def expectEnd (activity : Activity) (since : Mark) : Composing Unit := do
  let next ← take
  if next.lexeme ≠ .blockEnd then
    throw (.while_ activity since (.expectedLexeme "<block end>" next.lexeme.name) next.start)

def expectComma (activity : Activity) (since : Mark) (what : Text) : Composing Unit := do
  let next ← take
  if next.lexeme ≠ .comma then
    throw (.while_ activity since (.gotLexeme what next.lexeme.name) next.start)

mutual

/-- A node. Block style is left out inside of flow style, and a sequence without indentation of its
own may stand only as a part of a mapping. `fuel` bounds the nesting and the length of
collections. -/
def node : (fuel : Nat) → (block inMapping : Bool) → Composing NodeId
  | 0, _, _ => do throw (← get).fault
  | fuel + 1, block, inMapping => do
    let first ← peek
    if let .alias_ name := first.lexeme then
      let _ ← take
      aliased name first.start
    else
      let p ← properties
      let next ← peek
      let list (items : Composing (List NodeId)) : Composing NodeId :=
        branch p (p.collectionTag .list) do return .sequence (← items)
      let table (entries : Composing (List (NodeId × NodeId))) : Composing NodeId :=
        branch p (p.collectionTag .table) do return .mapping (← entries)
      match next.lexeme, block, inMapping with
      | .scalar t plain, _, _ =>
        let _ ← take
        claim p ⟨p.start, p.scalarTag plain t, .scalar t⟩
      | .item, _, true => list (bareItems fuel)
      | .flowSequence, _, _ => list do let _ ← take; flowItems fuel next.start true
      | .flowMapping, _, _ => table do let _ ← take; flowEntries fuel next.start true
      | .blockSequence, true, _ => list do let _ ← take; blockItems fuel next.start
      | .blockMapping, true, _ => table do let _ ← take; blockEntries fuel next.start
      | _, _, _ =>
        if p.anchor.isSome || p.tag.isSome then claim p ⟨p.start, p.scalarTag true [], .scalar []⟩
        else
          let activity := if block then Activity.blockNode else Activity.flowNode
          throw (.while_ activity p.start (.expectedLexeme "the node content" next.lexeme.name)
            next.start)

def blockItems : (fuel : Nat) → (since : Mark) → Composing (List NodeId)
  | 0, _ => do throw (← get).fault
  | fuel + 1, since => do
    let next ← peek
    if ← skip? .item then
      let first ← unlessNext [.item, .blockEnd] next.stop (node fuel true false)
      return first :: (← blockItems fuel since)
    expectEnd .blockCollection since
    return []

/-- The items of a sequence that is indented like the mapping around it. -/
def bareItems : (fuel : Nat) → Composing (List NodeId)
  | 0 => do throw (← get).fault
  | fuel + 1 => do
    let next ← peek
    if ← skip? .item then
      let first ← unlessNext [.item, .key, .value, .blockEnd] next.stop (node fuel true false)
      return first :: (← bareItems fuel)
    return []

def blockEntries : (fuel : Nat) → (since : Mark) → Composing (List (NodeId × NodeId))
  | 0, _ => do throw (← get).fault
  | fuel + 1, since => do
    let ends := [.key, .value, .blockEnd]
    let next ← peek
    if ← skip? .key then
      let key ← unlessNext ends next.stop (node fuel true true)
      let value ← valueBehind ends (node fuel true true)
      return (key, value) :: (← blockEntries fuel since)
    expectEnd .blockMapping since
    return []

def flowItems : (fuel : Nat) → (since : Mark) → (first : Bool) → Composing (List NodeId)
  | 0, _, _ => do throw (← get).fault
  | fuel + 1, since, first => do
    if ← skip? .flowSequenceEnd then return []
    if !first then expectComma .flowSequence since "',' or ']'"
    let next ← peek
    if ← skip? .key then
      let ends := [.comma, .flowSequenceEnd]
      let entry ← within do
        let key ← unlessNext (.value :: ends) next.stop (node fuel false false)
        return (key, ← valueBehind ends (node fuel false false))
      let pair ← add ⟨next.start, .table, .mapping [entry]⟩
      return pair :: (← flowItems fuel since false)
    if ← skip? .flowSequenceEnd then return []
    let item ← node fuel false false
    return item :: (← flowItems fuel since false)

def flowEntries :
    (fuel : Nat) → (since : Mark) → (first : Bool) → Composing (List (NodeId × NodeId))
  | 0, _, _ => do throw (← get).fault
  | fuel + 1, since, first => do
    if ← skip? .flowMappingEnd then return []
    if !first then expectComma .flowMapping since "',' or '\x7d'"
    let next ← peek
    if ← skip? .key then
      let ends := [.comma, .flowMappingEnd]
      let key ← unlessNext (.value :: ends) next.stop (node fuel false false)
      let value ← valueBehind ends (node fuel false false)
      return (key, value) :: (← flowEntries fuel since false)
    if ← skip? .flowMappingEnd then return []
    let key ← node fuel false false
    let value ← add (.empty (← peek).start)
    return (key, value) :: (← flowEntries fuel since false)

end

/-- The tag handles that directives define. A document names one version at most, and of the first
generation. -/
def directives : (fuel : Nat) → (hasVersion : Bool) → (handles : List (Text × Text)) →
    Composing (List (Text × Text))
  | 0, _, handles => return handles
  | fuel + 1, hasVersion, handles => do
    let next ← peek
    match next.lexeme with
    | .version major =>
      let _ ← take
      if hasVersion then throw (.plain .secondVersion next.start)
      if major ≠ 1 then throw (.plain .incompatibleVersion next.start)
      directives fuel true handles
    | .tagHandle handle expansion =>
      let _ ← take
      if (handles.lookup handle).isSome then throw (.plain (.secondHandle handle) next.start)
      directives fuel hasVersion ((handle, expansion) :: handles)
    | .otherDirective =>
      let _ ← take
      directives fuel hasVersion handles
    | _ => return handles

def standardHandles : List (Text × Text) := [("!", "!"), ("!!", Tag.standardSpace)]

def documentStart (fuel : Nat) : Composing Unit := do
  let handles ← directives fuel false []
  modify fun s => { s with handles := handles ++ standardHandles }
  let next ← peek
  if !(← skip? .documentStart) then
    throw (.plain (.expectedLexeme "'<document start>'" next.lexeme.name) next.start)

/-- The only document of a stream; there may be none at all. -/
def document (fuel : Nat) : Composing (Option NodeId) := do
  let first ← peek
  if first.lexeme = .streamEnd then return none
  let root ←
    if first.lexeme.isDirective || first.lexeme = .documentStart then do
      documentStart fuel
      let next ← peek
      if next.lexeme.isDirective || [.documentStart, .documentEnd, .streamEnd].contains next.lexeme then
        add (.empty next.start)
      else node fuel true false
    else node fuel true false
  modify fun s =>
    { s with lexemes := s.lexemes.dropWhile fun (l : Placed) => l.lexeme = .documentEnd }
  let next ← peek
  if next.lexeme ≠ .streamEnd then
    documentStart fuel
    let start := ((← get).nodes.getD root default).start
    throw (.while_ .singleDocument start .anotherDocument next.start)
  return some root

end Composing

def NodeGraph.ofSource? (limit : Nat) (source : Source) : Except Fault (Option NodeGraph) := do
  let lexed := Lexed.ofSource source
  let fault := lexed.fault.getD (.plain .endOfStream ⟨0, 0⟩)
  let fuel := 2 * lexed.lexemes.length + 2
  let handles := Composing.standardHandles
  let start : Composition := { lexemes := lexed.lexemes, fault, handles, limit }
  let (root, s) ← (Composing.document fuel).run start
  return root.map fun root => ⟨s.nodes, root⟩

end SemanticHighlight.Yaml
