import ArchDiagram.Vocabulary
import ArchDiagram.Syntax

/-!
The rules that a diagram has to keep and the ways to break them. A violation names what broke the
rule; its rule, its wording and the entity that it concerns follow from that.
-/

namespace ArchDiagram.Analysis

inductive Rule
  | duplicateEntity
  | duplicateMember
  | unknownRelationEnd
  | emptyEnumeration
  | interfaceDefault
  | circularInheritance
  | unknownStyleTarget
  | duplicateValue
  | kindNotAllowed
  | unknownLayoutTarget
  | abstractAndFinal
  | duplicateParameter
  | unknownExtends
  | unknownImplements
deriving DecidableEq, Repr

namespace Rule

def all : List Rule :=
  [duplicateEntity, duplicateMember, unknownRelationEnd, emptyEnumeration, interfaceDefault,
   circularInheritance, unknownStyleTarget, duplicateValue, kindNotAllowed, unknownLayoutTarget,
   abstractAndFinal, duplicateParameter, unknownExtends, unknownImplements]

/-- The name by which a rule is reported and switched off. -/
def id : Rule → String
  | duplicateEntity => "SS-1"
  | duplicateMember => "SS-2"
  | unknownRelationEnd => "SS-3"
  | emptyEnumeration => "SS-4"
  | interfaceDefault => "SS-5"
  | circularInheritance => "SS-6"
  | unknownStyleTarget => "SS-7"
  | duplicateValue => "SS-8"
  | kindNotAllowed => "SS-9"
  | unknownLayoutTarget => "SS-10"
  | abstractAndFinal => "SS-11"
  | duplicateParameter => "SS-12"
  | unknownExtends => "SS-13"
  | unknownImplements => "SS-14"

def ofId? (text : String) : Option Rule := all.find? (·.id = text)

theorem mem_all (rule : Rule) : rule ∈ all := by cases rule <;> decide

theorem eq_of_id_eq {rule other : Rule} (same : rule.id = other.id) : rule = other := by
  revert same
  cases rule <;> cases other <;> decide

theorem ofId?_eq_some_iff {text : String} {rule : Rule} :
    ofId? text = some rule ↔ rule.id = text := by
  have id_eq {other : Rule} (found : ofId? text = some other) : other.id = text := by
    rw [ofId?] at found
    have same := List.find?_some found
    exact of_decide_eq_true same
  constructor
  · exact id_eq
  · intro same
    have present : (ofId? text).isSome = true := by
      rw [ofId?, List.find?_isSome]
      exact ⟨rule, mem_all rule, decide_eq_true same⟩
    obtain ⟨other, found⟩ := Option.isSome_iff_exists.1 present
    rw [found, eq_of_id_eq ((id_eq found).trans same.symm)]

end Rule

inductive Violation
  | duplicateEntity (entity : String)
  | duplicateMember (member entity : String)
  | unknownRelationEnd (name : String)
  | emptyEnumeration (entity : String)
  | interfaceDefault (field entity : String)
  | circularInheritance (entity : String)
  | unknownStyleTarget (name : String)
  | duplicateValue (value entity : String)
  | kindNotAllowed (entity : String) (kind : EntityKind) (diagram : DiagramKind)
  | unknownLayoutTarget (name : String)
  | abstractAndFinal (entity : String)
  | duplicateParameter (param method entity : String)
  | unknownExtends (entity parent : String)
  | unknownImplements (entity parent : String)
deriving DecidableEq, Repr

namespace Violation

def rule : Violation → Rule
  | duplicateEntity _ => .duplicateEntity
  | duplicateMember _ _ => .duplicateMember
  | unknownRelationEnd _ => .unknownRelationEnd
  | emptyEnumeration _ => .emptyEnumeration
  | interfaceDefault _ _ => .interfaceDefault
  | circularInheritance _ => .circularInheritance
  | unknownStyleTarget _ => .unknownStyleTarget
  | duplicateValue _ _ => .duplicateValue
  | kindNotAllowed _ _ _ => .kindNotAllowed
  | unknownLayoutTarget _ => .unknownLayoutTarget
  | abstractAndFinal _ => .abstractAndFinal
  | duplicateParameter _ _ _ => .duplicateParameter
  | unknownExtends _ _ => .unknownExtends
  | unknownImplements _ _ => .unknownImplements

def entity? : Violation → Option String
  | duplicateEntity entity | duplicateMember _ entity | emptyEnumeration entity
  | interfaceDefault _ entity | circularInheritance entity | duplicateValue _ entity
  | kindNotAllowed entity _ _ | abstractAndFinal entity | duplicateParameter _ _ entity
  | unknownExtends entity _ | unknownImplements entity _ => some entity
  | unknownRelationEnd _ | unknownStyleTarget _ | unknownLayoutTarget _ => none

def named (name : String) : String := "'" ++ name ++ "'"

def message : Violation → String
  | duplicateEntity entity => "Duplicate entity name " ++ named entity
  | duplicateMember member entity => "Duplicate member " ++ named member ++ " in " ++ named entity
  | unknownRelationEnd name => "Relation references unknown entity " ++ named name
  | emptyEnumeration entity => "Enum " ++ named entity ++ " must declare at least one value"
  | interfaceDefault field entity =>
    "Interface " ++ named entity ++ " field " ++ named field ++ " cannot have a default value"
  | circularInheritance entity => "Circular inheritance detected involving " ++ named entity
  | unknownStyleTarget name => "Style references unknown entity " ++ named name
  | duplicateValue value entity => "Duplicate enum value " ++ named value ++ " in " ++ named entity
  | kindNotAllowed _ kind diagram =>
    "Entity kind " ++ named kind.word ++ " is not valid in " ++ named diagram.word ++ " diagrams"
  | unknownLayoutTarget name => "Layout annotation references unknown entity " ++ named name
  | abstractAndFinal entity => "Entity " ++ named entity ++ " cannot be both abstract and final"
  | duplicateParameter param method entity =>
    "Duplicate parameter " ++ named param ++ " in method " ++ named method ++ " of " ++ named entity
  | unknownExtends entity parent => named entity ++ " extends unknown entity " ++ named parent
  | unknownImplements entity parent =>
    named entity ++ " implements unknown entity " ++ named parent

end Violation

structure Finding where
  violation : Violation
  span : Span
deriving DecidableEq, Repr

end ArchDiagram.Analysis
