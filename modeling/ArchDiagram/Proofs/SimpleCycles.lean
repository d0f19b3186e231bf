import ArchDiagram.Proofs.WellFormed
import Mathlib.Data.Set.Insert

/-!
How often a cycle is reported. A report passes over the parents of its entity and over nothing else
on the cycle, so it stands for the whole cycle only if that has no more than two entities. Links into
a cycle from outside can add reports or take some away, so they are left out here.
-/

namespace ArchDiagram.Analysis

open Relation

section Cycles

/-- The names that are above a name and below it: the cycles through the name, taken together. -/
def cycleOf (ancestry : Ancestry) (name : String) : Set String :=
  {other | TransGen (Extends ancestry) name other ∧ TransGen (Extends ancestry) other name}

def cycles (ancestry : Ancestry) : Set (Set String) :=
  {cycle | ∃ name, OnCycle ancestry name ∧ cycle = cycleOf ancestry name}

/-- No name has two parents on its own cycle, so every cycle is a single round of links. -/
def SimpleCycles (ancestry : Ancestry) : Prop :=
  ∀ name, ∀ parent ∈ cycleOf ancestry name, ∀ other ∈ cycleOf ancestry name,
    Extends ancestry name parent → Extends ancestry name other → parent = other

/-- What extends a name on a cycle is on this cycle too. -/
def ClosedCycles (ancestry : Ancestry) : Prop :=
  ∀ name parent, Extends ancestry name parent → OnCycle ancestry parent →
    name ∈ cycleOf ancestry parent

variable {ancestry : Ancestry} {name other : String} {cycle : Set String}

theorem onCycle_of_mem (inside : other ∈ cycleOf ancestry name) : OnCycle ancestry other :=
  inside.2.trans inside.1

theorem mem_cycleOf_comm : other ∈ cycleOf ancestry name ↔ name ∈ cycleOf ancestry other := and_comm

theorem cycleOf_eq (inside : other ∈ cycleOf ancestry name) :
    cycleOf ancestry other = cycleOf ancestry name := by
  obtain ⟨up, down⟩ := inside
  ext third
  constructor
  · rintro ⟨above, below⟩
    exact ⟨up.trans above, below.trans down⟩
  · rintro ⟨above, below⟩
    exact ⟨down.trans above, below.trans up⟩

theorem eq_cycleOf (known : cycle ∈ cycles ancestry) (inside : name ∈ cycle) :
    cycle = cycleOf ancestry name := by
  obtain ⟨first, -, rfl⟩ := known
  exact (cycleOf_eq inside).symm

theorem cycleOf_mem_cycles (round : OnCycle ancestry name) :
    cycleOf ancestry name ∈ cycles ancestry := ⟨name, round, rfl⟩

theorem exists_parent (round : OnCycle ancestry name) :
    ∃ parent ∈ cycleOf ancestry name, Extends ancestry name parent := by
  obtain ⟨parent, link, back⟩ := TransGen.head'_iff.1 round
  exact ⟨parent, ⟨.single link, .trans_right back round⟩, link⟩

theorem extends_of_pair (inside : other ∈ cycleOf ancestry name) (different : name ≠ other)
    (pair : ∀ third ∈ cycleOf ancestry name, third = name ∨ third = other) :
    Extends ancestry name other := by
  obtain ⟨up, down⟩ := inside
  -- Along the way up, which may pass through the name itself again.
  have along {from_ : String} (way : TransGen (Extends ancestry) from_ other) :
      from_ = name → Extends ancestry name other := by
    induction way using TransGen.head_induction_on with
    | single link =>
      rintro rfl
      exact link
    | @head start next link rest ih =>
      rintro rfl
      rcases pair next ⟨.single link, rest.trans down⟩ with back | there
      · exact ih back
      · exact there ▸ link
  exact along up rfl

theorem ClosedCycles.onCycle (closed : ClosedCycles ancestry)
    (circular : ReachesCycle ancestry name) : OnCycle ancestry name := by
  obtain ⟨node, path, round⟩ := circular
  induction path using ReflTransGen.head_induction_on with
  | refl => exact round
  | head link _ ih => exact onCycle_of_mem (closed _ _ link ih)

end Cycles

section Reports

variable {diagram : DiagramDecl} {entity other : EntityDecl} {before after : List EntityDecl}

theorem extends_iff (counted : entity ∈ countedEntities diagram)
    (above : other ∈ countedEntities diagram) :
    Extends (inheritance diagram) entity.name other.name ↔ other.name ∈ entity.extendsNames := by
  have own := lookup_ancestry (nodup_countedEntities diagram) counted
  have declared := lookup_ancestry (nodup_countedEntities diagram) above
  rw [Extends, inheritance, own, declared]
  exact and_iff_left rfl

theorem exists_of_extends {name parent : String}
    (link : Extends (inheritance diagram) name parent) :
    ∃ entity ∈ countedEntities diagram, entity.name = name ∧ parent ∈ entity.extendsNames := by
  obtain ⟨up, -⟩ := link
  obtain ⟨entry, member, same⟩ := List.lookup_isSome_iff.1 (isSome_lookup up)
  obtain ⟨entity, counted, rfl⟩ := List.mem_map.1 member
  obtain rfl : name = entity.name := beq_iff_eq.1 same
  rw [inheritance, lookup_ancestry (nodup_countedEntities diagram) counted] at up
  exact ⟨entity, counted, rfl, up⟩

theorem simpleCycles_of_single (single : ∀ entity ∈ countedEntities diagram,
    ∀ parent ∈ entity.extendsNames, ∀ other ∈ entity.extendsNames, parent = other) :
    SimpleCycles (inheritance diagram) := by
  rintro name parent - other - link ⟨up, -⟩
  obtain ⟨entity, counted, rfl, own⟩ := exists_of_extends link
  rw [inheritance, lookup_ancestry (nodup_countedEntities diagram) counted] at up
  exact single entity counted parent own other up

theorem eq_of_name_eq (counted : entity ∈ countedEntities diagram)
    (again : other ∈ countedEntities diagram) (same : entity.name = other.name) : entity = other :=
  List.inj_on_of_nodup_map (nodup_countedEntities diagram) counted again same

theorem exists_first {entities : List EntityDecl} (cycle : Set String) (member : entity ∈ entities)
    (inside : entity.name ∈ cycle) : ∃ before first after, entities = before ++ first :: after ∧
      first.name ∈ cycle ∧ ∀ earlier ∈ before, earlier.name ∉ cycle := by
  classical
  have found : (entities.find? (·.name ∈ cycle)).isSome = true :=
    List.find?_isSome.2 ⟨entity, member, decide_eq_true inside⟩
  obtain ⟨first, there⟩ := Option.isSome_iff_exists.1 found
  obtain ⟨fits, before, after, whole, others⟩ := List.find?_eq_some_iff_append.1 there
  exact ⟨before, first, after, whole, of_decide_eq_true fits, by simpa using others⟩

theorem first_reported (closed : ClosedCycles (inheritance diagram))
    (whole : countedEntities diagram = before ++ entity :: after)
    (round : OnCycle (inheritance diagram) entity.name)
    (first : ∀ earlier ∈ before, earlier.name ∉ cycleOf (inheritance diagram) entity.name) :
    circularFinding entity ∈ circularFindings diagram := by
  -- The first entity on a cycle is reported: what extends it stands behind it.
  rw [mem_circularFindings_iff whole]
  refine ⟨⟨entity.name, .refl, round⟩, fun earlier member _ up => first earlier member ?_⟩
  have counted : entity ∈ countedEntities diagram := by simp [whole]
  have front : earlier ∈ countedEntities diagram := by simp [whole, member]
  exact closed _ _ ((extends_iff front counted).2 up) round

/-- On a cycle of at most two entities only the first one is reported. -/
theorem not_reported_of_small (closed : ClosedCycles (inheritance diagram))
    (small : ∃ a b, cycleOf (inheritance diagram) entity.name ⊆ {a, b})
    (whole : countedEntities diagram = before ++ entity :: after) (member : other ∈ before)
    (inside : other.name ∈ cycleOf (inheritance diagram) entity.name) :
    circularFinding entity ∉ circularFindings diagram := by
  intro reported
  obtain ⟨front, first, rest, rfl, there, none_⟩ := exists_first _ member inside
  have split : countedEntities diagram = front ++ first :: (rest ++ entity :: after) := by
    rw [whole, List.append_assoc, List.cons_append]
  have same := cycleOf_eq there
  have shown := first_reported closed split (onCycle_of_mem there) (same ▸ none_)
  have different : first.name ≠ entity.name := by
    have distinct := nodup_countedEntities diagram
    rw [split, List.map_append, List.map_cons, List.map_append, List.map_cons] at distinct
    intro named
    have later := (List.nodup_cons.1 distinct.of_append_right).1
    exact later (by simp [named])
  have round := onCycle_of_mem (mem_cycleOf_comm.1 there)
  -- There are two names on the cycle, and these are two.
  have pair : ∀ third ∈ cycleOf (inheritance diagram) first.name,
      third = first.name ∨ third = entity.name := by
    obtain ⟨a, b, covered⟩ := small
    intro third on
    have own : entity.name ∈ ({a, b} : Set String) := covered ⟨round, round⟩
    have near : first.name ∈ ({a, b} : Set String) := covered there
    have far : third ∈ ({a, b} : Set String) := covered (same ▸ on)
    simp only [Set.mem_insert_iff, Set.mem_singleton_iff] at own near far
    grind
  have link := extends_of_pair (mem_cycleOf_comm.1 there) different pair
  rw [extends_iff (by simp [split]) (by simp [split])] at link
  exact ((mem_circularFindings_iff whole).1 reported).2 first (by simp) shown link

/-- One report stands for every cycle, and it names an entity on it. -/
def ReportedOnce (diagram : DiagramDecl) : Prop :=
  ∃ reported : List (Set String), reported.Nodup ∧
    (∀ cycle, cycle ∈ reported ↔ cycle ∈ cycles (inheritance diagram)) ∧
    List.Forall₂ (fun finding cycle =>
      ∃ name ∈ cycle, finding.violation = .circularInheritance name)
      (circularFindings diagram) reported

theorem ReportedOnce.eq (once : ReportedOnce diagram) (counted : entity ∈ countedEntities diagram)
    (again : other ∈ countedEntities diagram)
    (reported : circularFinding entity ∈ circularFindings diagram)
    (shown : circularFinding other ∈ circularFindings diagram)
    (inside : other.name ∈ cycleOf (inheritance diagram) entity.name) : entity = other := by
  obtain ⟨found, distinct, known, matched⟩ := once
  obtain ⟨-, each⟩ := List.forall₂_iff_get.1 matched
  have named {entity : EntityDecl} {i : Nat} (h : i < (circularFindings diagram).length)
      (h' : i < found.length) (there : (circularFindings diagram)[i] = circularFinding entity) :
      found[i] = cycleOf (inheritance diagram) entity.name := by
    obtain ⟨name, on, same⟩ := each i h h'
    rw [List.get_eq_getElem, there] at same
    cases same
    exact eq_cycleOf ((known _).1 (List.getElem_mem h')) on
  obtain ⟨i, hi, here⟩ := List.getElem_of_mem reported
  obtain ⟨j, hj, there⟩ := List.getElem_of_mem shown
  have hi' : i < found.length := matched.length_eq ▸ hi
  have hj' : j < found.length := matched.length_eq ▸ hj
  have same : found[i] = found[j] := by rw [named hi hi' here, named hj hj' there, cycleOf_eq inside]
  obtain rfl := (distinct.getElem_inj_iff).1 same
  have names := congrArg (·.violation) (here.symm.trans there)
  exact eq_of_name_eq counted again (Violation.circularInheritance.inj names)

theorem eq_of_small (closed : ClosedCycles (inheritance diagram))
    (small : ∃ a b, cycleOf (inheritance diagram) entity.name ⊆ {a, b})
    (counted : entity ∈ countedEntities diagram) (again : other ∈ countedEntities diagram)
    (reported : circularFinding entity ∈ circularFindings diagram)
    (shown : circularFinding other ∈ circularFindings diagram)
    (inside : other.name ∈ cycleOf (inheritance diagram) entity.name) : entity = other := by
  obtain ⟨before, after, whole⟩ := List.append_of_mem counted
  rw [whole, List.mem_append, List.mem_cons] at again
  rcases again with sooner | same | later
  · exact absurd reported (not_reported_of_small closed small whole sooner inside)
  · exact same.symm
  · obtain ⟨middle, rest, rfl⟩ := List.append_of_mem later
    have split : countedEntities diagram = (before ++ entity :: middle) ++ other :: rest := by
      rw [whole, List.append_assoc, List.cons_append]
    have same := cycleOf_eq inside
    exact absurd shown (not_reported_of_small closed (same ▸ small) split (by simp)
      (mem_cycleOf_comm.1 inside))

theorem reportedOnce_of_small (closed : ClosedCycles (inheritance diagram))
    (small : ∀ cycle ∈ cycles (inheritance diagram), ∃ a b, cycle ⊆ {a, b}) :
    ReportedOnce diagram := by
  have listed {entity : EntityDecl} : entity ∈ (countedEntities diagram).filter
      (·.name ∈ circularNames (inheritance diagram)) ↔ entity ∈ countedEntities diagram ∧
        circularFinding entity ∈ circularFindings diagram := by
    rw [List.mem_filter, decide_eq_true_iff]
    exact and_congr_right fun counted => (mem_circularFindings counted).symm
  have round {entity : EntityDecl} (counted : entity ∈ countedEntities diagram)
      (reported : circularFinding entity ∈ circularFindings diagram) :
      OnCycle (inheritance diagram) entity.name := by
    obtain ⟨before, after, whole⟩ := List.append_of_mem counted
    exact closed.onCycle ((mem_circularFindings_iff whole).1 reported).1
  refine ⟨((countedEntities diagram).filter (·.name ∈ circularNames (inheritance diagram))).map
    (cycleOf (inheritance diagram) ·.name), ?_, fun cycle => ?_, ?_⟩
  -- Entities that are reported for one cycle are one entity.
  · have distinct := (nodup_countedEntities diagram).of_map _
    refine (distinct.filter _).map_on fun entity member other again same => ?_
    obtain ⟨counted, reported⟩ := listed.1 member
    obtain ⟨counted', reported'⟩ := listed.1 again
    have own := round counted' reported'
    exact eq_of_small closed (small _ (cycleOf_mem_cycles (round counted reported))) counted counted'
      reported reported' (same ▸ ⟨own, own⟩)
  · rw [List.mem_map]
    constructor
    · rintro ⟨entity, member, rfl⟩
      obtain ⟨counted, reported⟩ := listed.1 member
      exact cycleOf_mem_cycles (round counted reported)
    · rintro ⟨name, circular, rfl⟩
      obtain ⟨entity, counted, rfl⟩ := exists_entity_of_onCycle circular
      obtain ⟨before, first, after, whole, inside, none_⟩ :=
        exists_first _ counted (show entity.name ∈ cycleOf _ _ from ⟨circular, circular⟩)
      have same := cycleOf_eq inside
      have reported := first_reported closed whole (onCycle_of_mem inside) (same ▸ none_)
      exact ⟨first, listed.2 ⟨by simp [whole], reported⟩, same⟩
  · rw [circularFindings_eq, List.forall₂_map_left_iff, List.forall₂_map_right_iff,
      List.forall₂_same]
    intro entity member
    obtain ⟨counted, reported⟩ := listed.1 member
    have own := round counted reported
    exact ⟨entity.name, ⟨own, own⟩, rfl⟩

/-- A cycle that is reported once consists of its first entity and the parent of that one: any other
entity on it is reported, or passed over because of a report behind the first. -/
theorem small_of_reportedOnce (simple : SimpleCycles (inheritance diagram))
    (closed : ClosedCycles (inheritance diagram)) (once : ReportedOnce diagram) :
    ∀ cycle ∈ cycles (inheritance diagram), ∃ a b, cycle ⊆ {a, b} := by
  rintro _ ⟨name, circular, rfl⟩
  obtain ⟨entity, counted, rfl⟩ := exists_entity_of_onCycle circular
  obtain ⟨before, first, after, whole, inside, none_⟩ :=
    exists_first _ counted (show entity.name ∈ cycleOf _ _ from ⟨circular, circular⟩)
  rw [← cycleOf_eq inside] at none_ ⊢
  have round := onCycle_of_mem inside
  have reported := first_reported closed whole round none_
  have firstCounted : first ∈ countedEntities diagram := by simp [whole]
  obtain ⟨parent, above, link⟩ := exists_parent round
  refine ⟨first.name, parent, fun other on => ?_⟩
  -- A third name on the cycle is not reported, so a report before it passes it over.
  by_contra outside
  rw [Set.mem_insert_iff, Set.mem_singleton_iff, not_or] at outside
  obtain ⟨third, thirdCounted, rfl⟩ := exists_entity_of_onCycle (onCycle_of_mem on)
  have quiet : circularFinding third ∉ circularFindings diagram := fun shown =>
    outside.1 (once.eq firstCounted thirdCounted reported shown on ▸ rfl)
  obtain ⟨sooner, later, split⟩ := List.append_of_mem thirdCounted
  rw [mem_circularFindings_iff split] at quiet
  refine quiet ⟨⟨third.name, .refl, onCycle_of_mem on⟩, fun earlier member shown up => ?_⟩
  have earlierCounted : earlier ∈ countedEntities diagram := by simp [split, member]
  have up := (extends_iff earlierCounted thirdCounted).2 up
  have near := closed _ _ up (onCycle_of_mem on)
  rw [cycleOf_eq on] at near
  -- That report is on the same cycle, so it is the first one, and the name is its parent.
  obtain rfl := once.eq firstCounted earlierCounted reported shown near
  exact outside.2 (simple first.name _ on _ above up link)

/-- Where every cycle is a single round of links and nothing outside extends it, each cycle is
reported once, by a report of its own, exactly if no cycle has more than two entities. -/
theorem reportedOnce_iff_small (simple : SimpleCycles (inheritance diagram))
    (closed : ClosedCycles (inheritance diagram)) :
    ReportedOnce diagram ↔
      ∀ cycle ∈ cycles (inheritance diagram), ∃ a b, cycle ⊆ {a, b} :=
  ⟨small_of_reportedOnce simple closed, reportedOnce_of_small closed⟩

/-- Two entities that extend each other. -/
theorem reportedOnce_iff_small_pair :
    let span : Span := ⟨.start, 0⟩
    let entity (name parent : String) : EntityDecl :=
      ⟨[], .classType, name, none, [parent], [], [], span⟩
    let diagram : DiagramDecl := ⟨"D", .classes,
      [.declaration (.entity (entity "A" "B")), .declaration (.entity (entity "B" "A"))], span⟩
    SimpleCycles (inheritance diagram) ∧ ClosedCycles (inheritance diagram) ∧
      ReportedOnce diagram := by
  intro span entity diagram
  have counted : countedEntities diagram = [entity "A" "B", entity "B" "A"] := rfl
  have up : Extends (inheritance diagram) "A" "B" := ⟨by decide +kernel, by decide +kernel⟩
  have down : Extends (inheritance diagram) "B" "A" := ⟨by decide +kernel, by decide +kernel⟩
  have simple : SimpleCycles (inheritance diagram) :=
    simpleCycles_of_single (by simp [counted, entity])
  have links {name parent : String} (link : Extends (inheritance diagram) name parent) :
      (name = "A" ∧ parent = "B") ∨ (name = "B" ∧ parent = "A") := by
    obtain ⟨found, member, rfl, own⟩ := exists_of_extends link
    rw [counted, List.mem_pair] at member
    rcases member with rfl | rfl
    · exact .inl ⟨rfl, List.mem_singleton.1 own⟩
    · exact .inr ⟨rfl, List.mem_singleton.1 own⟩
  have closed : ClosedCycles (inheritance diagram) := by
    intro name parent link _
    rcases links link with ⟨rfl, rfl⟩ | ⟨rfl, rfl⟩
    · exact ⟨.single down, .single up⟩
    · exact ⟨.single up, .single down⟩
  refine ⟨simple, closed, (reportedOnce_iff_small simple closed).2 ?_⟩
  rintro _ ⟨name, -, rfl⟩
  refine ⟨"A", "B", fun other on => ?_⟩
  obtain ⟨parent, -, link⟩ := exists_parent (onCycle_of_mem on)
  exact (links link).imp And.left And.left

/-- A round of three links. Its third entity is no parent of the first one, so both are reported. -/
theorem not_reportedOnce_three :
    let span : Span := ⟨.start, 0⟩
    let entity (name parent : String) : EntityDecl :=
      ⟨[], .classType, name, none, [parent], [], [], span⟩
    let diagram : DiagramDecl := ⟨"D", .classes, [.declaration (.entity (entity "A" "B")),
      .declaration (.entity (entity "B" "C")), .declaration (.entity (entity "C" "A"))], span⟩
    SimpleCycles (inheritance diagram) ∧ ¬ ReportedOnce diagram := by
  intro span entity diagram
  have counted : countedEntities diagram = [entity "A" "B", entity "B" "C", entity "C" "A"] := rfl
  have first : Extends (inheritance diagram) "A" "B" := ⟨by decide +kernel, by decide +kernel⟩
  have second : Extends (inheritance diagram) "B" "C" := ⟨by decide +kernel, by decide +kernel⟩
  have third : Extends (inheritance diagram) "C" "A" := ⟨by decide +kernel, by decide +kernel⟩
  refine ⟨simpleCycles_of_single (by simp [counted, entity]), fun once => ?_⟩
  have reported : circularFinding (entity "A" "B") ∈ circularFindings diagram := by decide +kernel
  have again : circularFinding (entity "C" "A") ∈ circularFindings diagram := by decide +kernel
  have same := once.eq (by simp [counted]) (by simp [counted]) reported again
    ⟨.tail (.single first) second, .single third⟩
  exact absurd (congrArg EntityDecl.name same) (by decide)

end Reports

end ArchDiagram.Analysis
