import ArchDiagram.Yaml.Tag

/-!
Documents as graphs of nodes. A node that an alias refers to is part of several collections, or of
itself, so collections hold the numbers of their parts.
-/

namespace ArchDiagram.Yaml

abbrev NodeId := Nat

abbrev Pair := NodeId × NodeId

inductive Content
  | scalar (text : Text.CodePoints)
  | sequence (items : List NodeId)
  | mapping (pairs : List Pair)
deriving DecidableEq, Repr

structure Node where
  tag : Tag
  content : Content
deriving DecidableEq, Repr

def Node.empty : Node := ⟨.null, .scalar []⟩

structure Graph where
  nodes : Array Node

namespace Graph

def size (graph : Graph) : Nat := graph.nodes.size

def node (graph : Graph) (id : NodeId) : Node := graph.nodes.getD id .empty

def tag (graph : Graph) (id : NodeId) : Tag := (graph.node id).tag

def content (graph : Graph) (id : NodeId) : Content := (graph.node id).content

def pairs (graph : Graph) (id : NodeId) : List Pair :=
  match graph.content id with
  | .mapping pairs => pairs
  | _ => []

def pairCount (graph : Graph) : Nat :=
  (List.range graph.size).foldl (fun count id => count + (graph.pairs id).length) 0

/-- Adds a node. Its number is the size of the graph before. -/
def push (graph : Graph) (node : Node) : Graph := ⟨graph.nodes.push node⟩

def setTag (graph : Graph) (id : NodeId) (tag : Tag) : Graph :=
  ⟨graph.nodes.modify id fun node => { node with tag := tag }⟩

def setContent (graph : Graph) (id : NodeId) (content : Content) : Graph :=
  ⟨graph.nodes.modify id fun node => { node with content := content }⟩

end Graph

end ArchDiagram.Yaml
