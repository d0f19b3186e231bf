import ArchDiagram.Vocabulary
import ArchDiagram.OrderedMap
import ArchDiagram.Decimal.Binary64

/-!
The object model of a program: what its diagrams show, once declarations and annotations are put
together. Relations name the entities at their ends; the entities themselves are kept in one place,
the map of their diagram.
-/

namespace ArchDiagram.Model

inductive Visibility
  | forAll
  | forOwner
  | forHeirs
  | forPackage
deriving DecidableEq, Repr

def Visibility.word : Visibility → String
  | forAll => "public"
  | forOwner => "private"
  | forHeirs => "protected"
  | forPackage => "package"

structure Place where
  x : Decimal.Binary64
  y : Decimal.Binary64
deriving DecidableEq, Repr

structure Field where
  name : String
  type : String
  visibility : Visibility
  isStatic : Bool
  isFinal : Bool
  defaultValue : Option String
deriving DecidableEq, Repr

structure Param where
  name : String
  type : String
deriving DecidableEq, Repr

structure Method where
  name : String
  params : List Param
  returnType : String
  visibility : Visibility
  isStatic : Bool
  isAbstract : Bool
deriving DecidableEq, Repr

structure Value where
  name : String
deriving DecidableEq, Repr

structure Entity where
  id : String
  name : String
  kind : EntityKind
  stereotype : Option String
  isAbstract : Bool
  package : Option String
  fields : List Field
  methods : List Method
  values : List Value
  extendsNames : List String
  implementsNames : List String
  place : Option Place
  styles : OrderedMap String
  note : Option String
deriving DecidableEq, Repr

/-- A relation between two entities, whose names stand in source order. -/
structure Relation where
  id : String
  source : String
  target : String
  kind : RelationKind
  isReversed : Bool
  label : Option String
  sourceMultiplicity : Option String
  targetMultiplicity : Option String
  styles : OrderedMap String
deriving DecidableEq, Repr

inductive Package
  | mk (name : String) (entityNames : List String) (subPackages : List Package)
deriving Repr

structure Note where
  text : String
  target : Option String
deriving DecidableEq, Repr

/-- A diagram. The entities are in the order of their declarations. -/
structure Diagram where
  name : String
  kind : DiagramKind
  entities : OrderedMap Entity
  relations : List Relation
  packages : List Package
  notes : List Note
deriving Repr

end ArchDiagram.Model

namespace ArchDiagram

structure Model where
  diagrams : List Model.Diagram
deriving Repr

end ArchDiagram
