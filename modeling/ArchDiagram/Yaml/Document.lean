import ArchDiagram.Yaml.Evaluation
import ArchDiagram.Yaml.Graph.Reader
import ArchDiagram.Yaml.Token.Lexer

/-!
The values of documents, as nodes of which it is known what they are worth.
-/

namespace ArchDiagram.Yaml

/-- A node among others, or a part of a collection of which nothing more is asked. -/
structure Place where
  worths : Array (Option Worth)
  node? : Option NodeId

namespace Place

def part (place : Place) (id : NodeId) : Place := { place with node? := some id }

def look (place : Place) : View Place :=
  match place.node?.bind fun id => (place.worths[id]?).join with
  | some (.scalar value) => .scalar value
  | some (.list items) => .list (items.map place.part)
  | some (.pairs count) => .list (.replicate count { place with node? := none })
  | some (.mapping entries) => .mapping (entries.map place.part)
  | some .set | none => .other

end Place

def load (text : String) : Except Fault Place := do
  match ← Graph.ofTokens? (tokens text) with
  | (none, _) => return ⟨#[some (.scalar .null)], some 0⟩
  | (some root, graph) =>
    let (_, space) ← (Evaluation.all root).run (.ofGraph graph)
    return ⟨space.worths, some root⟩

def Loader.standard : Loader := ⟨Place, Place.look, Yaml.load⟩

end ArchDiagram.Yaml
