/-!
The words and operators of the diagram language, grouped by what they stand for. Each group has a
spelling and a reading function; a spelling is read back as the value that it stands for.
-/

namespace ArchDiagram

inductive DiagramKind
  | classes
  | usecase
  | sequence
  | component
  | flow
  | deployment
deriving DecidableEq, Repr

namespace DiagramKind

def all : List DiagramKind := [classes, usecase, sequence, component, flow, deployment]

def word : DiagramKind → String
  | classes => "class"
  | usecase => "usecase"
  | sequence => "sequence"
  | component => "component"
  | flow => "flow"
  | deployment => "deployment"

def ofWord? (text : String) : Option DiagramKind := all.find? (·.word = text)

theorem mem_all (kind : DiagramKind) : kind ∈ all := by cases kind <;> decide

end DiagramKind

inductive EntityKind
  | classType
  | interface
  | enumeration
  | actor
  | usecase
  | component
  | node
deriving DecidableEq, Repr

namespace EntityKind

def all : List EntityKind := [classType, interface, enumeration, actor, usecase, component, node]

def word : EntityKind → String
  | classType => "class"
  | interface => "interface"
  | enumeration => "enum"
  | actor => "actor"
  | usecase => "usecase"
  | component => "component"
  | node => "node"

def ofWord? (text : String) : Option EntityKind := all.find? (·.word = text)

theorem mem_all (kind : EntityKind) : kind ∈ all := by cases kind <;> decide

end EntityKind

inductive Modifier
  | abstract
  | static
  | final
deriving DecidableEq, Repr

namespace Modifier

def all : List Modifier := [abstract, static, final]

def word : Modifier → String
  | abstract => "abstract"
  | static => "static"
  | final => "final"

def ofWord? (text : String) : Option Modifier := all.find? (·.word = text)

theorem mem_all (modifier : Modifier) : modifier ∈ all := by cases modifier <;> decide

end Modifier

inductive BuiltinType
  | list
  | map
  | set
  | optional
  | int
  | float
  | bool
  | string
  | void
deriving DecidableEq, Repr

namespace BuiltinType

def all : List BuiltinType := [list, map, set, optional, int, float, bool, string, void]

def word : BuiltinType → String
  | list => "list"
  | map => "map"
  | set => "set"
  | optional => "optional"
  | int => "int"
  | float => "float"
  | bool => "bool"
  | string => "string"
  | void => "void"

theorem mem_all (type : BuiltinType) : type ∈ all := by cases type <;> decide

end BuiltinType

inductive VisibilityMark
  | plus
  | minus
  | hash
  | tilde
  | absent
deriving DecidableEq, Repr

namespace VisibilityMark

/-- Every mark, the missing one included. -/
def all : List VisibilityMark := [plus, minus, hash, tilde, absent]

/-- The mark as written; nothing where it is left out. -/
def symbol : VisibilityMark → String
  | plus => "+"
  | minus => "-"
  | hash => "#"
  | tilde => "~"
  | absent => ""

def ofSymbol? (text : String) : Option VisibilityMark := all.find? (·.symbol = text)

end VisibilityMark

/-- The thirteen operators between two entities, as they are written. The name says the relation
and the side of the arrow: the ones called `reversed` point at the entity on their left. -/
inductive RelationOperator
  | inheritance
  | realization
  | inheritanceReversed
  | realizationReversed
  | dependencyReversed
  | aggregationReversed
  | compositionReversed
  | directedAssociation
  | dependency
  | aggregation
  | composition
  | restriction
  | association
deriving DecidableEq, Repr

/-- What a relation means, whichever way its operator points. -/
inductive RelationKind
  | association
  | directedAssociation
  | inheritance
  | realization
  | aggregation
  | composition
  | dependency
  | restriction
deriving DecidableEq, Repr

def RelationKind.word : RelationKind → String
  | association => "association"
  | directedAssociation => "directed-association"
  | inheritance => "inheritance"
  | realization => "realization"
  | aggregation => "aggregation"
  | composition => "composition"
  | dependency => "dependency"
  | restriction => "restriction"

namespace RelationOperator

/-- Every operator. An operator stands before those that its spelling begins with, so the first
one that fits a text is the longest one. -/
def all : List RelationOperator :=
  [inheritance, realization, inheritanceReversed, realizationReversed, dependencyReversed,
   aggregationReversed, compositionReversed, directedAssociation, dependency, aggregation,
   composition, restriction, association]

def symbol : RelationOperator → String
  | inheritance => "--|>"
  | realization => "..|>"
  | inheritanceReversed => "<|--"
  | realizationReversed => "<|.."
  | dependencyReversed => "<.."
  | aggregationReversed => "o--"
  | compositionReversed => "*--"
  | directedAssociation => "-->"
  | dependency => "..>"
  | aggregation => "--o"
  | composition => "--*"
  | restriction => "--x"
  | association => "--"

def ofSymbol? (text : String) : Option RelationOperator := all.find? (·.symbol = text)

/-- The meaning of an operator. A reversed operator means what its forward form means. -/
def kind : RelationOperator → RelationKind
  | inheritance | inheritanceReversed => .inheritance
  | realization | realizationReversed => .realization
  | dependency | dependencyReversed => .dependency
  | aggregation | aggregationReversed => .aggregation
  | composition | compositionReversed => .composition
  | directedAssociation => .directedAssociation
  | restriction => .restriction
  | association => .association

def isReversed : RelationOperator → Bool
  | inheritanceReversed | realizationReversed | dependencyReversed
  | aggregationReversed | compositionReversed => true
  | _ => false

theorem mem_all (operator : RelationOperator) : operator ∈ all := by cases operator <;> decide

end RelationOperator

end ArchDiagram
