import ArchDiagram.Yaml.Graph
import ArchDiagram.Yaml.Scalar

/-!
What the nodes of a graph are worth. A node is evaluated once, however many collections it is part
of. A collection has a worth at once and gets its parts later: collections wait in the order in
which they were come upon, and are filled level by level. This decides which of several faults is
found. Filling a mapping can change the graph, because merged pairs become its own, and the sign for
a default value becomes a text.
-/

namespace ArchDiagram.Yaml

/-- What a node is worth. The parts of a collection are nodes, the keys of a mapping apart. -/
inductive Worth
  | scalar (value : Scalar)
  | list (items : List NodeId)
  | pairs (count : Nat)
  | mapping (entries : Mapping NodeId)
  | set

/-- The graph, what the nodes are found to be worth, and the collections that wait for their parts,
the latest first. -/
structure Workspace where
  graph : Graph
  worths : Array (Option Worth)
  waiting : List NodeId

abbrev Evaluation := StateT Workspace (Except Fault)

namespace Evaluation

def tagOf (id : NodeId) : Evaluation Tag := return (← get).graph.tag id

def contentOf (id : NodeId) : Evaluation Content := return (← get).graph.content id

def pairsOf (id : NodeId) : Evaluation (List Pair) := return (← get).graph.pairs id

def change (f : Graph → Graph) : Evaluation Unit :=
  modify fun space => { space with graph := f space.graph }

def worth? (id : NodeId) : Evaluation (Option Worth) := return ((← get).worths[id]?).join

def note (id : NodeId) (worth : Worth) : Evaluation Unit :=
  modify fun space => { space with worths := space.worths.setIfInBounds id (some worth) }

/-- The text of a node that is asked for one. A mapping has that of its default value. -/
def textOf : (steps : Nat) → NodeId → Evaluation Text.CodePoints
  | 0, _ => throw .endless
  | steps + 1, id => do
    match ← contentOf id with
    | .scalar text => return text
    | .sequence _ => throw .malformed
    | .mapping pairs =>
      let graph := (← get).graph
      match pairs.find? fun pair => graph.tag pair.1 = .value with
      | some pair => textOf steps pair.2
      | none => throw .malformed

/-- The value of a node of a scalar type. Only a scalar has a time. -/
def scalarOf (id : NodeId) (tag : Tag) : Evaluation Scalar := do
  let text ← textOf ((← get).graph.size + 1) id
  match tag, ← contentOf id with
  | .timestamp, .mapping _ => throw .collectionAsTimestamp
  | _, _ => scalarValue id tag text

/-- Finds out what a node is worth. A collection will get its parts later. -/
def visit (id : NodeId) : Evaluation Unit := do
  if (← worth? id).isNone then
    let tag ← tagOf id
    let wait (worth : Worth) : Evaluation Unit := do
      note id worth
      modify fun space => { space with waiting := id :: space.waiting }
    match tag with
    | .sequence => wait (.list [])
    | .mapping => wait (.mapping .empty)
    | .orderedMap | .pairs => wait (.pairs 0)
    | .set => wait .set
    | .merge | .value | .unknown => throw .malformed
    | _ => note id (.scalar (← scalarOf id tag))

/-- The value of a node that is a key. A collection is no key. -/
def keyOf (id : NodeId) : Evaluation Scalar := do
  visit id
  match ← worth? id with
  | some (.scalar value) => return value
  | _ => throw .malformed

/-- Gives keys that are the sign for a default value the type of a text. -/
def spellOut (pairs : List Pair) : Evaluation Unit :=
  pairs.forM fun pair => do
    if (← tagOf pair.1) = .value then
      change (·.setTag pair.1 .text)

/-- The number of merges that one merge can lead to, with room for pairs that are merged twice. -/
def mergeLimit (graph : Graph) : Nat := 2 * (graph.pairCount + 1) * (graph.pairCount + 1)

mutual

/-- Puts the pairs that a mapping merges in front of its own, which then override them. -/
def flatten : (steps : Nat) → NodeId → Evaluation Unit
  | 0, _ => throw .endless
  | steps + 1, id => do
    let merged ← takeMerged steps id 0
    change fun graph => graph.setContent id (.mapping (merged ++ graph.pairs id))

/-- Takes the merges from the pairs of a mapping behind so many; the pairs that they stand for. -/
def takeMerged : (steps : Nat) → NodeId → (skipped : Nat) → Evaluation (List Pair)
  | 0, _, _ => throw .endless
  | steps + 1, id, skipped => do
    let graph := (← get).graph
    let pairs := (← pairsOf id).drop skipped
    let passed := pairs.takeWhile fun pair => graph.tag pair.1 ≠ .merge
    spellOut passed
    match pairs.drop passed.length with
    | [] => return []
    | (_, source) :: _ =>
      let index := skipped + passed.length
      change fun graph => graph.setContent id (.mapping ((graph.pairs id).eraseIdx index))
      let found ← mergedFrom steps source
      return found ++ (← takeMerged steps id index)

def mergedFrom : (steps : Nat) → NodeId → Evaluation (List Pair)
  | 0, _ => throw .endless
  | steps + 1, id => do
    match ← contentOf id with
    | .mapping _ =>
      flatten steps id
      pairsOf id
    | .sequence items =>
      let found ← items.mapM fun item => do
        match ← contentOf item with
        | .mapping _ =>
          flatten steps item
          pairsOf item
        | _ => throw .malformed
      return found.reverse.flatten
    | .scalar _ => throw .malformed

end

def entriesOf (id : NodeId) : Evaluation (Mapping NodeId) := do
  match ← contentOf id with
  | .mapping _ =>
    flatten (mergeLimit (← get).graph) id
    (← pairsOf id).foldlM (fun entries pair => do
      let key ← keyOf pair.1
      visit pair.2
      return entries.put key pair.2) .empty
  | _ => throw .malformed

def itemsOf (id : NodeId) : Evaluation (List NodeId) := do
  match ← contentOf id with
  | .sequence items => return items
  | _ => throw .malformed

/-- Looks at an item of a list of pairs, which is a mapping of one pair. Nothing is merged. -/
def visitPair (id : NodeId) : Evaluation Unit := do
  match ← contentOf id with
  | .mapping [pair] =>
    visit pair.1
    visit pair.2
  | _ => throw .malformed

def fill (id : NodeId) : Evaluation Unit := do
  match ← tagOf id with
  | .sequence =>
    let items ← itemsOf id
    items.forM visit
    note id (.list items)
  | .orderedMap | .pairs =>
    let items ← itemsOf id
    items.forM visitPair
    note id (.pairs items.length)
  | .mapping => note id (.mapping (← entriesOf id))
  | .set => discard (entriesOf id)
  | _ => throw .malformed

/-- Gives all collections their parts, level by level. No graph has more levels than nodes. -/
def fillAll : (levels : Nat) → Evaluation Unit
  | 0 => pure ()
  | levels + 1 => do
    let level := (← get).waiting.reverse
    modify fun space => { space with waiting := [] }
    level.forM fill
    if !level.isEmpty then
      fillAll levels

def all (root : NodeId) : Evaluation Unit := do
  visit root
  fillAll ((← get).graph.size + 1)

end Evaluation

def Workspace.ofGraph (graph : Graph) : Workspace := ⟨graph, .replicate graph.size none, []⟩

end ArchDiagram.Yaml
