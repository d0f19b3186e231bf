import ArchDiagram.Proofs.Sites.Body
import ArchDiagram.Proofs.Findings
import ArchDiagram.Report

/-!
What is found at declarations, one by one, is what is wrong with them. What is wrong is told by
numbers alone: which modifier, member, parameter or declaration stands where, and which one with its
name stands before. The findings are these faults in the order of their sites, and nothing that is
found across a diagram stands among them.
-/

namespace ArchDiagram.Analysis

def Before {α : Type} (xs : List α) (number : Nat) (property : α → Prop) : Prop :=
  ∃ i < number, ∃ x, xs[i]? = some x ∧ property x

/-- Fields and methods share their names, values have names of their own. -/
def IsNamed (name : String) : Member → Prop
  | .field decl => decl.name = name
  | .method decl => decl.name = name
  | .value _ => False

/-- What is wrong with the member of a number, part by part: its name stands first, and behind it
the default value of a field or the parameters of a method. -/
inductive MemberFault (entity : EntityDecl) (number : Nat) : Member → List Nat → Finding → Prop
  | value {decl : ValueDecl} :
      Before entity.members number (fun member => ∃ other, member = .value other ∧
        other.name = decl.name) →
      MemberFault entity number (.value decl) [0] ⟨.duplicateValue decl.name entity.name, decl.span⟩
  | field {decl : FieldDecl} : Before entity.members number (IsNamed decl.name) →
      MemberFault entity number (.field decl) [0]
        ⟨.duplicateMember decl.name entity.name, decl.span⟩
  | default {decl : FieldDecl} : entity.kind = .interface → decl.defaultValue ≠ none →
      MemberFault entity number (.field decl) [1]
        ⟨.interfaceDefault decl.name entity.name, decl.span⟩
  | method {decl : MethodDecl} : Before entity.members number (IsNamed decl.name) →
      MemberFault entity number (.method decl) [0]
        ⟨.duplicateMember decl.name entity.name, decl.span⟩
  | param {decl : MethodDecl} {param : ParamDecl} {k : Nat} : decl.params[k]? = some param →
      Before decl.params k (fun other => other.name = param.name) →
      MemberFault entity number (.method decl) [1, k]
        ⟨.duplicateParameter param.name decl.name entity.name, param.span⟩

/-- What is wrong with a declaration, part by part: its modifiers, its members by number, its values
as a whole and its name, which may be taken. -/
inductive EntityFault (taken : String → Prop) (entity : EntityDecl) : List Nat → Finding → Prop
  | modifiers : .abstract ∈ entity.modifiers → .final ∈ entity.modifiers →
      EntityFault taken entity [0] ⟨.abstractAndFinal entity.name, entity.span⟩
  | member {number : Nat} {member : Member} {part : List Nat} {finding : Finding} :
      entity.members[number]? = some member → MemberFault entity number member part finding →
      EntityFault taken entity (1 :: number :: part) finding
  | values : entity.kind = .enumeration → (∀ decl, .value decl ∉ entity.members) →
      EntityFault taken entity [2] ⟨.emptyEnumeration entity.name, entity.span⟩
  | name : taken entity.name →
      EntityFault taken entity [3] ⟨.duplicateEntity entity.name, entity.span⟩

/-- What is wrong with the declarations of a body, at their paths and parts. A name is taken by every
declaration before. -/
def DeclarationFault (body : List Item) (place : List Nat ×ₗ List Nat) (finding : Finding) : Prop :=
  ∃ entity, DeclaredAt body (ofLex place).1 (.entity entity) ∧
    EntityFault (fun name => ∃ before < (ofLex place).1, ∃ other,
      DeclaredAt body before (.entity other) ∧ other.name = name) entity (ofLex place).2 finding

theorem Enumerates.behind {stands : List Nat → Finding → Prop} {list : List Finding}
    (listed : Enumerates stands list) (number : Nat) :
    Enumerates (fun part finding => ∃ rest, part = number :: rest ∧ stands rest finding) list :=
  listed.at_sites (number :: ·) fun _ _ _ _ _ _ less => List.cons_lt_cons_iff.2 (.inr ⟨rfl, less⟩)

theorem exists_earlier_iff {α : Type} (xs : List α) (number : Nat) (property : α → Prop) :
    (∃ y ∈ (xs.take number).reverse, property y) ↔ Before xs number property := by
  simp only [List.mem_reverse, (enumerates_take xs number).mem_iff, Before]
  constructor
  · rintro ⟨y, ⟨i, less, there⟩, holds⟩
    exact ⟨i, less, y, there, holds⟩
  · rintro ⟨i, less, y, there, holds⟩
    exact ⟨y, ⟨i, less, there⟩, holds⟩

section Checks

variable {entity : EntityDecl}

theorem enumerates_repeatedParams (method : MethodDecl) :
    Enumerates (fun part finding => ∃ k param, part = [k] ∧ method.params[k]? = some param ∧
        Before method.params k (fun other => other.name = param.name) ∧
        finding = ⟨.duplicateParameter param.name method.name entity.name, param.span⟩)
      (repeatedParams entity.name method) := by
  refine (enumerates_numbered method.params _ (fun k param part finding =>
    Before method.params k (fun other => other.name = param.name) ∧ part = [] ∧
      finding = ⟨.duplicateParameter param.name method.name entity.name, param.span⟩) ?_).congr ?_
  · intro k param _
    refine (Enumerates.single _ [] _).congr fun _ _ => and_congr_left' ?_
    rw [← exists_earlier_iff, List.mem_map]
  · intro part finding
    constructor
    · rintro ⟨k, rest, param, rfl, there, taken, rfl, same⟩
      exact ⟨k, param, rfl, there, taken, same⟩
    · rintro ⟨k, param, rfl, there, taken, same⟩
      exact ⟨k, [], param, rfl, there, taken, rfl, same⟩

section Members

variable (entity) (number : Nat)

theorem mem_memberNames_iff (name : String) :
    name ∈ (entity.members.take number).reverse.filterMap memberName? ↔
      Before entity.members number (IsNamed name) := by
  rw [← exists_earlier_iff, List.mem_filterMap]
  refine exists_congr fun member => and_congr_right fun _ => ?_
  cases member <;> simp [memberName?, IsNamed]

theorem mem_valueNames_iff (name : String) :
    name ∈ (entity.members.take number).reverse.filterMap valueName? ↔
      Before entity.members number
        (fun member => ∃ other, member = .value other ∧ other.name = name) := by
  rw [← exists_earlier_iff, List.mem_filterMap]
  refine exists_congr fun member => and_congr_right fun _ => ?_
  cases member <;> simp [valueName?]

theorem enumerates_repeatedMember (name : String) (span : Span) :
    Enumerates (fun part finding => Before entity.members number (IsNamed name) ∧ part = [0] ∧
        finding = ⟨.duplicateMember name entity.name, span⟩)
      (repeatedMember entity.name (entity.members.take number).reverse name span) :=
  (Enumerates.single _ [0] _).congr fun _ _ => and_congr_left' (mem_memberNames_iff entity number name)

theorem enumerates_memberFindings (member : Member) :
    Enumerates (MemberFault entity number member)
      (memberFindings entity (entity.members.take number).reverse member) := by
  -- The name of a member comes first among its parts, so its findings stand in front.
  cases member with
  | value decl =>
    refine (Enumerates.single _ [0] _).congr fun part finding => ?_
    rw [mem_valueNames_iff]
    constructor
    · rintro ⟨taken, rfl, rfl⟩
      exact .value taken
    · rintro ⟨taken⟩
      exact ⟨taken, rfl, rfl⟩
  | field decl =>
    have names := enumerates_repeatedMember entity number decl.name decl.span
    refine (names.append (Enumerates.single _ [1] _) ?_).congr fun part finding => ?_
    · rintro _ _ _ _ ⟨-, rfl, -⟩ ⟨-, rfl, -⟩
      decide
    · constructor
      · rintro (⟨taken, rfl, rfl⟩ | ⟨⟨interface, given⟩, rfl, rfl⟩)
        · exact .field taken
        · exact .default interface (Option.isSome_iff_ne_none.1 given)
      · rintro (_ | taken | ⟨interface, given⟩)
        · exact .inl ⟨taken, rfl, rfl⟩
        · exact .inr ⟨⟨interface, Option.isSome_iff_ne_none.2 given⟩, rfl, rfl⟩
  | method decl =>
    have names := enumerates_repeatedMember entity number decl.name decl.span
    refine (names.append ((enumerates_repeatedParams decl).behind 1) ?_).congr fun part finding => ?_
    · rintro _ _ _ _ ⟨-, rfl, -⟩ ⟨rest, rfl, -⟩
      exact List.cons_lt_cons_iff.2 (.inl Nat.zero_lt_one)
    · constructor
      · rintro (⟨taken, rfl, rfl⟩ | ⟨_, rfl, k, param, rfl, there, taken, rfl⟩)
        · exact .method taken
        · exact .param there taken
      · rintro (_ | _ | _ | taken | ⟨there, taken⟩)
        · exact .inl ⟨taken, rfl, rfl⟩
        · exact .inr ⟨_, rfl, _, _, rfl, there, taken, rfl⟩

end Members

theorem enumerates_members (entity : EntityDecl) :
    Enumerates (fun part finding => ∃ number rest member, part = number :: rest ∧
        entity.members[number]? = some member ∧ MemberFault entity number member rest finding)
      ((withEarlier entity.members).flatMap fun (earlier, member) =>
        memberFindings entity earlier member) :=
  enumerates_numbered entity.members _ (MemberFault entity)
    fun number member _ => enumerates_memberFindings entity number member

theorem valueNames_eq_nil_iff (members : List Member) :
    members.filterMap valueName? = [] ↔ ∀ decl, .value decl ∉ members := by
  rw [List.filterMap_eq_nil_iff]
  constructor
  · intro none_ decl member
    cases none_ _ member
  · intro none_ member inside
    cases member with
    | value decl => exact absurd inside (none_ decl)
    | field | method => rfl

theorem enumerates_entityFindings {earlier : List EntityDecl} {taken : String → Prop}
    (names : entity.name ∈ earlier.map (·.name) ↔ taken entity.name) :
    Enumerates (EntityFault taken entity)
      (entityFindings entity ++ repeatedEntity earlier entity) := by
  have modifiers := Enumerates.single (.abstract ∈ entity.modifiers ∧ .final ∈ entity.modifiers)
    [0] (⟨.abstractAndFinal entity.name, entity.span⟩ : Finding)
  have values := Enumerates.single
    (entity.kind = .enumeration ∧ entity.members.filterMap valueName? = [])
    [2] (⟨.emptyEnumeration entity.name, entity.span⟩ : Finding)
  have name := Enumerates.single (entity.name ∈ earlier.map (·.name))
    [3] (⟨.duplicateEntity entity.name, entity.span⟩ : Finding)
  -- The parts stand in this order, so the list of one is followed by that of the next.
  have own := modifiers.append ((enumerates_members entity).behind 1) (by
    rintro _ _ _ _ ⟨-, rfl, -⟩ ⟨rest, rfl, -⟩
    exact List.cons_lt_cons_iff.2 (.inl Nat.zero_lt_one))
  have all := own.append values (by
    rintro _ _ _ _ (⟨-, rfl, -⟩ | ⟨rest, rfl, -⟩) ⟨-, rfl, -⟩
    · decide
    · exact List.cons_lt_cons_iff.2 (.inl Nat.one_lt_two))
  refine (all.append name ?_).congr fun part finding => ?_
  · rintro _ _ _ _ ((⟨-, rfl, -⟩ | ⟨rest, rfl, -⟩) | ⟨-, rfl, -⟩) ⟨-, rfl, -⟩
    · decide
    · exact List.cons_lt_cons_iff.2 (.inl (by decide))
    · decide
  · rw [names, valueNames_eq_nil_iff]
    constructor
    · rintro (((⟨both, rfl, rfl⟩ | ⟨_, rfl, number, part, member, rfl, there, fault⟩) |
        ⟨⟨kind, none_⟩, rfl, rfl⟩) | ⟨known, rfl, rfl⟩)
      · exact .modifiers both.1 both.2
      · exact .member there fault
      · exact .values kind none_
      · exact .name known
    · intro fault
      cases fault with
      | modifiers abstract final => exact .inl (.inl (.inl ⟨⟨abstract, final⟩, rfl, rfl⟩))
      | member there fault =>
        exact .inl (.inl (.inr ⟨_, rfl, _, _, _, rfl, there, fault⟩))
      | values kind none_ => exact .inl (.inr ⟨⟨kind, none_⟩, rfl, rfl⟩)
      | name known => exact .inr ⟨known, rfl, rfl⟩

end Checks

theorem enumerates_declarationFindings (body : List Item) :
    Enumerates (DeclarationFault body) (declarationFindings body) := by
  refine (enumerates_entities body).flatMap_withEarlier _ (fun path entity part finding =>
    EntityFault (fun name => ∃ before < path, ∃ other,
      DeclaredAt body before (.entity other) ∧ other.name = name) entity part finding) ?_
  intro path entity earlier _ sooner
  refine enumerates_entityFindings ?_
  simp only [List.mem_map, sooner.mem_iff_of_reverse]
  constructor
  · rintro ⟨other, ⟨before, less, there⟩, same⟩
    exact ⟨before, less, other, there, same⟩
  · rintro ⟨before, less, other, there, same⟩
    exact ⟨other, ⟨before, less, there⟩, same⟩

/-- A repeated enumeration inside a package. Its own faults stand before the repetition. -/
example :
    let span : Span := ⟨.start, 0⟩
    let entity (members : List Member) : Item :=
      .declaration (.entity ⟨[.final, .abstract], .enumeration, "E", none, [], [], members, span⟩)
    let method : MethodDecl := ⟨.absent, [], "a", [⟨"p", .simple "int" span, span⟩,
      ⟨"p", .simple "int" span, span⟩], .simple "int" span, span⟩
    (declarationFindings [.package "p" [entity [.value ⟨"a", span⟩, .method method,
        .method method, .value ⟨"a", span⟩]] span, entity []]).map (·.violation) =
      [.abstractAndFinal "E", .duplicateParameter "p" "a" "E", .duplicateMember "a" "E",
       .duplicateParameter "p" "a" "E", .duplicateValue "a" "E", .abstractAndFinal "E",
       .emptyEnumeration "E", .duplicateEntity "E"] := by decide

end ArchDiagram.Analysis
