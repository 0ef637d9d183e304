import SemanticHighlight.Config.Comparison
import SemanticHighlight.Yaml.Merge

/-!
# What nodes stand for

A node becomes a value by its tag. Scalars do so at once; a collection is filled later, in the order
in which the collections were met, so that it can be a part of itself. Faults come to light in that
order as well. When all is filled, the cells whose parts have values are turned into values
themselves, and what remains are the knots of the document.
-/

namespace SemanticHighlight.Yaml

/-! ## Scalars -/

def readTimestamp (t : Text) : Except Fault Value :=
  match timestamp? (withoutFinalBreak t) with
  | none => .error .notATimestamp
  | some (date, none) => do
    date.check.mapError .calendar
    return .date date
  | some (_, some moment) => do
    moment.check.mapError .calendar
    return .moment moment

/-- The text of a scalar. A mapping with a key `=` has the text of what stands under it, if its tag
asks for a scalar. -/
def scalarText (nodes : Array Node) : (fuel : Nat) → NodeId → Except Fault Text
  | 0, _ => .error .endless
  | fuel + 1, id =>
    let n := nodes.getD id default
    match n.content with
    | .scalar t => .ok t
    | .mapping entries =>
      match entries.find? fun e => (nodes.getD e.1 default).tag = .default with
      | some e => scalarText nodes fuel e.2
      | none => .error (n.kindIsNot "a scalar node")
    | .sequence _ => .error (n.kindIsNot "a scalar node")

/-- A floating point number. The usual spelling of what is no number always means the same one; other
spellings mean one of their own at each node. -/
def realValue (id : NodeId) (t : Text) : Except Fault Value := do
  match ← readReal t with
  | .nan => return .notANumber (if spellsNan t then 0 else id + 1)
  | x => return .real x

def scalarValue (nodes : Array Node) (id : NodeId) : Except Fault Value := do
  let n := nodes.getD id default
  let t ← scalarText nodes (nodes.size + 1) id
  match n.tag with
  | .null => return .null
  | .bool => return .bool (← readTruth t)
  | .int => return .int (← readInteger t)
  | .real => realValue id t
  | .bytes => return .bytes (← (readBytes t).mapError fun why => .plain (.notBase64 why) n.start)
  | .timestamp =>
    match n.content with
    | .scalar t => readTimestamp t
    | _ => throw .notAText
  | _ => return .text t

/-! ## Cells -/

/-- What a node has become: a value, or a collection of other cells. -/
inductive Cell where
  | value (v : Value)
  | list (items : List Nat)
  | pair (first second : Nat)
  | set (members : List Value)
  | table (entries : List (Value × Nat))
  deriving Repr

structure Construction where
  nodes : Array Node
  /-- The cells of the nodes and, behind them, those of pairs. -/
  cells : Array (Option Cell)
  /-- The collections met so far, in order. -/
  collections : Array NodeId

abbrev Constructing := StateT Construction (Except Fault)

namespace Constructing

def node (id : NodeId) : Constructing Node := return (← get).nodes.getD id default

def setCell (id : Nat) (cell : Cell) : Constructing Unit :=
  modify fun s => { s with cells := s.cells.setIfInBounds id (some cell) }

/-- Meets a collection, which is empty for now. -/
def meet (id : NodeId) (cell : Cell) : Constructing Unit := do
  setCell id cell
  modify fun s => { s with collections := s.collections.push id }

def construct (id : NodeId) : Constructing Unit := do
  let s ← get
  if (s.cells.getD id none).isSome then return
  let n ← node id
  match n.tag with
  | .list | .pairs | .orderedMap => meet id (.list [])
  | .set => meet id (.set [])
  | .table => meet id (.table [])
  | .merge | .default | .unknown _ => throw (.plain (.unknownTag n.tag.toText) n.start)
  | _ => setCell id (.value (← scalarValue s.nodes id))

/-- The name that a node is in a table; collections are none. -/
def name? (id : NodeId) : Constructing (Option Value) := do
  construct id
  match (← get).cells.getD id none with
  | some (.value v) => return some v
  | _ => return none

/-- A new pair, written as a mapping of one entry. -/
def pair (activity : Activity) (since : Mark) (id : NodeId) : Constructing Nat := do
  let n ← node id
  match n.content with
  | .mapping [(first, second)] =>
    construct first
    construct second
    let s ← get
    set { s with cells := s.cells.push (some (.pair first second)) }
    return s.cells.size
  | .mapping entries => throw (.while_ activity since (.severalItems entries.length) n.start)
  | _ => throw (n.misfit activity since "a mapping of length 1")

def fillPairs (activity : Activity) (id : NodeId) (n : Node) : Constructing Unit := do
  match n.content with
  | .sequence items => setCell id (.list (← items.mapM (pair activity n.start)))
  | _ => throw (n.misfit activity n.start "a sequence")

/-- One more entry of a table. A name that comes again keeps its place and gets the new value. -/
def addEntry (since : Mark) (known : List (Value × Nat)) (e : NodeEntry) :
    Constructing (List (Value × Nat)) := do
  match ← name? e.1 with
  | none => throw (.while_ .mapping since .unhashableKey (← node e.1).start)
  | some name =>
    construct e.2
    return Value.insert known name e.2

def entries (depth : Nat) (id : NodeId) (n : Node) : Constructing (List (Value × Nat)) := do
  if !n.isMapping then throw (n.kindIsNot "a mapping node")
  let s ← get
  let (entries, nodes) ← (Merging.flattenWithin depth id).run s.nodes
  set { s with nodes }
  entries.foldlM (addEntry n.start) []

def fill (depth : Nat) (id : NodeId) : Constructing Unit := do
  let n ← node id
  match n.tag with
  | .pairs => fillPairs .pairs id n
  | .orderedMap => fillPairs .orderedMap id n
  | .set => setCell id (.set (Value.arrange ((← entries depth id n).map Prod.fst)))
  | .table => setCell id (.table (← entries depth id n))
  | _ =>
    match n.content with
    | .sequence items => do
      items.forM construct
      setCell id (.list items)
    | _ => throw (n.kindIsNot "a sequence node")

/-- Fills all collections from number `next` on, those included that are met on the way. No node is
met twice, so that `fuel` is their number. -/
def fillFrom (depth : Nat) : (fuel next : Nat) → Constructing Unit
  | 0, _ => return
  | fuel + 1, next => do
    match (← get).collections[next]? with
    | none => return
    | some id =>
      fill depth id
      fillFrom depth fuel (next + 1)

end Constructing

/-! ## Values -/

namespace Cell

def value? (part : Nat → Option Value) : Cell → Option Value
  | value v => some v
  | list items => do return .list (← items.mapM part)
  | pair first second => do return .pair (← part first) (← part second)
  | set members => some (.set members)
  | table entries => do return .table (← entries.mapM fun e => return (e.1, ← part e.2))

def brackets : Cell → Brackets
  | table _ => .curly
  | pair .. => .round
  | _ => .square

/-- Gives a value to every cell whose parts have one, the last cells first. -/
def settleOnce (cells : Array Cell) (values : Array (Option Value)) : Array (Option Value) :=
  (List.range cells.size).reverse.foldl (fun values id =>
    if (values.getD id none).isSome then values
    else
      let v := (cells[id]?).bind (value? fun part => values.getD part none)
      values.setIfInBounds id v) values

/-- Goes on for as long as there are more values each time. -/
def settle (cells : Array Cell) : (fuel : Nat) → Array (Option Value) → Array (Option Value)
  | 0, values => values
  | fuel + 1, values =>
    let more := settleOnce cells values
    if more.countP Option.isSome = values.countP Option.isSome then values
    else settle cells fuel more

/-- The content of a document with these cells. What gets no value is a knot. -/
def content (cells : Array Cell) (root : Nat) : Content :=
  let values := settle cells (cells.size + 1) (Array.replicate cells.size none)
  let knots := (List.range cells.size).filter fun id => (values.getD id none).isNone
  let cellAt (id : Nat) : Cell := cells.getD id (.value .null)
  let part (id : Nat) : Value :=
    (values.getD id none).getD (.knot (cellAt id).brackets (knots.idxOf id))
  ⟨part root, knots.map fun id => ((cellAt id).value? fun id => some (part id)).getD .null⟩

end Cell

def NodeGraph.content (graph : NodeGraph) : Except Fault Content := do
  let start : Construction := ⟨graph.nodes, Array.replicate graph.nodes.size none, #[]⟩
  let work : Constructing Unit := do
    Constructing.construct graph.root
    Constructing.fillFrom (Merging.depthOf graph.nodes) graph.nodes.size 0
  let ((), s) ← work.run start
  return Cell.content (s.cells.map fun cell => cell.getD (.value .null)) graph.root

/-- The content of a document, null if there is none. No more than `limit` collections may be open at a
time while it is read. -/
def read (limit : Nat) (source : Source) : Except Fault Content := do
  match ← NodeGraph.ofSource? limit source with
  | none => return .ofValue .null
  | some graph => graph.content

end SemanticHighlight.Yaml
