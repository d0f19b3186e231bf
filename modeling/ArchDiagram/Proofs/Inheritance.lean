import ArchDiagram.Proofs.Findings
import ArchDiagram.Proofs.Outline
import Mathlib.Logic.Relation

/-!
Circular inheritance is found where it is. A walk ends after a bounded number of looks, and its
verdict says whether a cycle is reachable from its start, whatever earlier walks have settled. So a
diagram has a finding on circular inheritance exactly if its graph has a cycle.
-/

namespace ArchDiagram.Analysis

open Relation

/-- A link from a name to one of its parents. Parents that are not declared have no link. -/
def Extends (ancestry : Ancestry) (name parent : String) : Prop :=
  parent ∈ (ancestry.lookup name).getD [] ∧ (ancestry.lookup parent).isSome = true

def OnCycle (ancestry : Ancestry) (name : String) : Prop := TransGen (Extends ancestry) name name

/-- Some name above the given one, or the name itself, is above itself. -/
def ReachesCycle (ancestry : Ancestry) (name : String) : Prop :=
  ∃ node, ReflTransGen (Extends ancestry) name node ∧ OnCycle ancestry node

section Graph

variable {ancestry : Ancestry} {name parent : String}

theorem isSome_lookup (up : parent ∈ (ancestry.lookup name).getD []) :
    (ancestry.lookup name).isSome = true := by
  cases found : ancestry.lookup name with
  | none => simp [found] at up
  | some parents => rfl

theorem ReachesCycle.extend (link : Extends ancestry name parent)
    (above : ReachesCycle ancestry parent) : ReachesCycle ancestry name := by
  obtain ⟨node, path, cycle⟩ := above
  exact ⟨node, path.head link, cycle⟩

theorem ReachesCycle.next (circular : ReachesCycle ancestry name) :
    ∃ parent, Extends ancestry name parent ∧ ReachesCycle ancestry parent := by
  obtain ⟨node, path, cycle⟩ := circular
  rcases path.cases_head with rfl | ⟨parent, link, rest⟩
  · obtain ⟨parent, link, back⟩ := TransGen.head'_iff.1 cycle
    exact ⟨parent, link, name, back, cycle⟩
  · exact ⟨parent, link, node, rest, cycle⟩

theorem forall_not_reachesCycle :
    (∀ name, ¬ ReachesCycle ancestry name) ↔ ∀ name, ¬ OnCycle ancestry name := by
  constructor
  · intro none_ name cycle
    exact none_ name ⟨name, .refl, cycle⟩
  · rintro none_ name ⟨node, -, cycle⟩
    exact none_ node cycle

end Graph

namespace Walk

-- The path of a walk, read from its latest name down to its start.

/-- A path whose latest name has the link to `above`, if there is one. A parent of a name on it is
still waiting, or settled, or the next name of the path. -/
inductive Trail (ancestry : Ancestry) (settled : List String) :
    (above : Option String) → List Frame → Prop
  | nil {above : Option String} : Trail ancestry settled above []
  | cons {above : Option String} {frame : Frame} {below : List Frame} :
      (∀ name, above = some name → Extends ancestry frame.name name) →
      (∀ parent ∈ frame.waiting, parent ∈ (ancestry.lookup frame.name).getD []) →
      (∀ parent, Extends ancestry frame.name parent →
        parent ∈ frame.waiting ∨ parent ∈ settled ∨ above = some parent) →
      Trail ancestry settled (some frame.name) below →
      Trail ancestry settled above (frame :: below)

/-- What every look keeps: nothing settled reaches a cycle, and the path is one of links. -/
structure Sound (ancestry : Ancestry) (walk : Walk) : Prop where
  settled : ∀ name ∈ walk.settled, ¬ ReachesCycle ancestry name
  trail : Trail ancestry walk.settled none walk.path

variable {ancestry : Ancestry}

theorem Trail.mono {settled more : List String} {above : Option String} {path : List Frame}
    (trail : Trail ancestry settled above path) (sub : settled ⊆ more) :
    Trail ancestry more above path := by
  induction trail with
  | nil => exact .nil
  | cons link own seen _ ih =>
    refine .cons link own (fun parent up => ?_) ih
    rcases seen parent up with waits | done | next
    · exact Or.inl waits
    · exact Or.inr (Or.inl (sub done))
    · exact Or.inr (Or.inr next)

theorem Trail.reaches {settled : List String} {above : String} {path : List Frame}
    (trail : Trail ancestry settled (some above) path) :
    ∀ frame ∈ path, TransGen (Extends ancestry) frame.name above := by
  generalize goal : some above = target at trail
  induction trail generalizing above with
  | nil => simp
  | @cons target frame below link own seen rest ih =>
    subst goal
    have first : Extends ancestry frame.name above := link above rfl
    intro other member
    rcases List.mem_cons.1 member with rfl | lower
    · exact .single first
    · exact (ih rfl other lower).tail first

theorem Trail.leave {settled : List String} {name : String} {path : List Frame}
    (trail : Trail ancestry settled (some name) path) :
    Trail ancestry (name :: settled) none path := by
  -- A name that is left stands for nothing on the path any more: it is settled.
  cases trail with
  | nil => exact .nil
  | cons link own seen below =>
    refine .cons (fun _ absent => nomatch absent) own (fun parent up => ?_)
      (below.mono (List.subset_cons_self name settled))
    rcases seen parent up with waits | done | next
    · exact Or.inl waits
    · exact Or.inr (Or.inl (List.mem_cons_of_mem name done))
    · cases next
      exact Or.inr (Or.inl List.mem_cons_self)

theorem Trail.pass {settled waiting : List String} {name parent : String} {below : List Frame}
    (trail : Trail ancestry settled none (⟨name, parent :: waiting⟩ :: below))
    (passed : Extends ancestry name parent → parent ∈ settled) :
    Trail ancestry settled none (⟨name, waiting⟩ :: below) := by
  cases trail with
  | cons link own seen rest =>
    refine .cons link (fun other waits => own other (List.mem_cons_of_mem parent waits))
      (fun other up => ?_) rest
    rcases seen other up with waits | done | next
    · rcases List.mem_cons.1 waits with rfl | waits
      · exact Or.inr (Or.inl (passed up))
      · exact Or.inl waits
    · exact Or.inr (Or.inl done)
    · cases next

theorem Trail.climb {settled waiting parents : List String} {name parent : String}
    {below : List Frame} (trail : Trail ancestry settled none (⟨name, parent :: waiting⟩ :: below))
    (declared : ancestry.lookup parent = some parents) :
    Trail ancestry settled none (⟨parent, parents⟩ :: ⟨name, waiting⟩ :: below) := by
  cases trail with
  | cons link own seen rest =>
    have same : (ancestry.lookup parent).getD [] = parents := by rw [declared, Option.getD_some]
    refine .cons (fun _ absent => nomatch absent) (fun other waits => ?_) (fun other up => ?_)
      (.cons (fun other next => ?_) (fun other waits => ?_) (fun other up => ?_) rest)
    · rw [same]
      exact waits
    · rw [← same]
      exact Or.inl up.1
    · cases next
      exact ⟨own parent List.mem_cons_self, by rw [declared, Option.isSome_some]⟩
    · exact own other (List.mem_cons_of_mem parent waits)
    -- A parent that waited is the one that comes onto the path, or it waits still.
    · rcases seen other up with waits | done | next
      · rcases List.mem_cons.1 waits with rfl | waits
        · exact Or.inr (Or.inr rfl)
        · exact Or.inl waits
      · exact Or.inr (Or.inl done)
      · cases next

theorem Trail.link {settled : List String} {above : Option String} {latest frame : Frame}
    {below : List Frame} (trail : Trail ancestry settled above (latest :: frame :: below)) :
    Extends ancestry frame.name latest.name := by
  cases trail with
  | cons _ _ _ rest =>
    cases rest with
    | cons link => exact link latest.name rfl

theorem Trail.harmless {settled : List String} {name : String} {below : List Frame}
    (trail : Trail ancestry settled none (⟨name, []⟩ :: below))
    (harmless : ∀ other ∈ settled, ¬ ReachesCycle ancestry other) :
    ¬ ReachesCycle ancestry name := by
  -- A name without a parent left does not reach a cycle, since no parent of it does.
  intro circular
  obtain ⟨parent, up, above⟩ := circular.next
  cases trail with
  | cons link own seen rest =>
    rcases seen parent up with waits | done | next
    · cases waits
    · exact harmless parent done above
    · cases next

/-- A parent that is on the path is the latest name, or one below it that reaches the latest. -/
theorem Trail.onCycle {settled waiting : List String} {name parent : String} {below : List Frame}
    (trail : Trail ancestry settled none (⟨name, parent :: waiting⟩ :: below))
    (back : parent ∈ name :: below.map Frame.name) : OnCycle ancestry name := by
  cases trail with
  | cons link own seen lower =>
    have up := own parent List.mem_cons_self
    rcases List.mem_cons.1 back with rfl | inside
    · exact .single ⟨up, isSome_lookup up⟩
    · obtain ⟨frame, member, rfl⟩ := List.mem_map.1 inside
      have above := lower.reaches frame member
      obtain ⟨first, ⟨own, -⟩, -⟩ := TransGen.head'_iff.1 above
      exact .head ⟨up, isSome_lookup own⟩ above

/-- Whether a name on the path of a walk reaches a cycle. -/
def Circular (ancestry : Ancestry) (walk : Walk) : Prop :=
  ∃ name ∈ walk.path.map Frame.name, ReachesCycle ancestry name

/-- A look keeps a walk sound and does not change whether it is circular. -/
theorem Sound.look {walk next : Walk} (sound : Sound ancestry walk)
    (further : walk.look ancestry = .further next) :
    Sound ancestry next ∧ (Circular ancestry next ↔ Circular ancestry walk) := by
  obtain ⟨settled, trail⟩ := sound
  revert further settled trail
  fun_cases Walk.look ancestry walk with
  | case1 => simp
  | case2 name below settled =>
    rintro ⟨⟩ harmless trail
    -- No parent is left that could lead to a cycle, so the name may be settled.
    have last := trail.harmless harmless
    constructor
    · constructor
      · intro other member
        rcases List.mem_cons.1 member with rfl | old
        · exact last
        · exact harmless other old
      · cases trail with
        | cons link own seen rest => exact rest.leave
    · simp [Circular, last]
  | case3 => simp
  | case4 name parent waiting below settled rest fresh done =>
    rintro ⟨⟩ harmless trail
    exact ⟨⟨harmless, trail.pass fun _ => done⟩, Iff.rfl⟩
  | case5 name parent waiting below settled rest fresh undone undeclared =>
    rintro ⟨⟩ harmless trail
    refine ⟨⟨harmless, trail.pass fun up => ?_⟩, Iff.rfl⟩
    have declared := up.2
    rw [undeclared] at declared
    cases declared
  | case6 name parent waiting below settled rest fresh undone parents declared =>
    rintro ⟨⟩ harmless trail
    have climbed := trail.climb declared
    refine ⟨⟨harmless, climbed⟩, ?_⟩
    constructor
    -- What the new name reaches, the name below it reaches too.
    · rintro ⟨other, member, circular⟩
      rcases List.mem_cons.1 member with rfl | old
      · exact ⟨name, List.mem_cons_self, circular.extend climbed.link⟩
      · exact ⟨other, old, circular⟩
    · rintro ⟨other, member, circular⟩
      exact ⟨other, List.mem_cons_of_mem parent member, circular⟩

theorem Sound.ended {walk : Walk} {verdict : Verdict} (sound : Sound ancestry walk)
    (ended : walk.look ancestry = .ended verdict) :
    (verdict.circular = true ↔ Circular ancestry walk) ∧ verdict.settled = walk.settled := by
  obtain ⟨settled, trail⟩ := sound
  revert ended settled trail
  fun_cases Walk.look ancestry walk with
  | case1 settled =>
    rintro ⟨⟩ - -
    simp [Circular]
  | case3 name parent waiting below settled rest back =>
    rintro ⟨⟩ - trail
    exact ⟨iff_of_true rfl ⟨name, List.mem_cons_self, name, .refl, trail.onCycle back⟩, rfl⟩
  | _ => simp

theorem Sound.run {walk : Walk} (sound : Sound ancestry walk) :
    ((walk.run ancestry).circular = true ↔ Circular ancestry walk) ∧
      ∀ name ∈ (walk.run ancestry).settled, ¬ ReachesCycle ancestry name := by
  fun_induction Walk.run ancestry walk with
  | case1 walk next further ih =>
    obtain ⟨kept, same⟩ := sound.look further
    rw [← same]
    exact ih kept
  | case2 walk verdict ended =>
    obtain ⟨right, same⟩ := sound.ended ended
    rw [same]
    exact ⟨right, sound.settled⟩

/-- No walk goes on for ever, from whatever state it is in. -/
theorem wellFounded_look (ancestry : Ancestry) :
    WellFounded fun next walk => Walk.look ancestry walk = .further next :=
  Subrelation.wf remaining_lt (measure (remaining ancestry)).wf

end Walk

section Searches

variable {ancestry : Ancestry}

/-- With nothing settled that reaches a cycle, the verdict on a name is right, and so is what is
settled afterwards. -/
theorem walkFrom_exact {settled : List String}
    (harmless : ∀ name ∈ settled, ¬ ReachesCycle ancestry name) (name : String) :
    ((walkFrom ancestry settled name).circular = true ↔ ReachesCycle ancestry name) ∧
      ∀ other ∈ (walkFrom ancestry settled name).settled, ¬ ReachesCycle ancestry other := by
  unfold walkFrom
  by_cases done : name ∈ settled
  · rw [if_pos done]
    exact ⟨iff_of_false Bool.false_ne_true (harmless name done), harmless⟩
  · rw [if_neg done]
    have start : Walk.Sound ancestry ⟨[⟨name, (ancestry.lookup name).getD []⟩], settled⟩ :=
      ⟨harmless, .cons (fun _ absent => nomatch absent) (fun _ waits => waits)
        (fun _ up => Or.inl up.1) .nil⟩
    obtain ⟨right, after⟩ := start.run
    refine ⟨right.trans ?_, after⟩
    simp [Walk.Circular]

def settledAfter (ancestry : Ancestry) (starts : List String) : List String :=
  starts.foldl (fun settled start => (walkFrom ancestry settled start).settled) []

theorem not_reachesCycle_of_settledAfter (starts : List String) :
    ∀ name ∈ settledAfter ancestry starts, ¬ ReachesCycle ancestry name := by
  unfold settledAfter
  induction starts using List.reverseRecOn with
  | nil => simp
  | append_singleton starts start ih =>
    rw [List.foldl_append]
    exact (walkFrom_exact ih start).2

theorem circularFrom_sublist (skipped settled : List String) (todo : Ancestry) :
    (circularFrom ancestry skipped settled todo).Sublist (todo.map Prod.fst) := by
  fun_induction circularFrom ancestry skipped settled todo with
  | case1 => exact .slnil
  | case2 skipped settled name parents rest skip ih => exact ih.cons name
  | case3 skipped settled name parents rest counts verdict circular ih => exact ih.cons_cons name
  | case4 skipped settled name parents rest counts verdict harmless ih => exact ih.cons name

theorem not_mem_circularFrom {todo : Ancestry} {name : String} (absent : name ∉ todo.map Prod.fst)
    (skipped settled : List String) : name ∉ circularFrom ancestry skipped settled todo :=
  fun member => absent ((circularFrom_sublist skipped settled todo).subset member)

/-- The next name is reported, and its parents are skipped from then on, or it is passed over. What
is settled stays harmless. -/
theorem circularFrom_step {skipped settled : List String}
    (harmless : ∀ other ∈ settled, ¬ ReachesCycle ancestry other) (own : String)
    (parents : List String) (todo : Ancestry) :
    ∃ after, (∀ other ∈ after, ¬ ReachesCycle ancestry other) ∧
      (own ∉ skipped ∧ ReachesCycle ancestry own ∧
        circularFrom ancestry skipped settled ((own, parents) :: todo) =
          own :: circularFrom ancestry (own :: parents ++ skipped) after todo ∨
      (own ∉ skipped → ¬ ReachesCycle ancestry own) ∧
        circularFrom ancestry skipped settled ((own, parents) :: todo) =
          circularFrom ancestry skipped after todo) := by
  rw [circularFrom]
  by_cases skip : own ∈ skipped
  · rw [if_pos skip]
    exact ⟨settled, harmless, Or.inr ⟨fun counts => absurd skip counts, rfl⟩⟩
  · rw [if_neg skip]
    obtain ⟨right, kept⟩ := walkFrom_exact harmless own
    refine ⟨_, kept, ?_⟩
    by_cases circular : (walkFrom ancestry settled own).circular = true
    · exact Or.inl ⟨skip, right.1 circular, by rw [if_pos circular]⟩
    · exact Or.inr ⟨fun _ => mt right.2 circular, by rw [if_neg circular]⟩

/-- A name is reported if it reaches a cycle and no name reported before it passes it over. -/
theorem mem_circularFrom {skipped settled : List String} {before after : Ancestry} {name : String}
    {parents : List String} (harmless : ∀ other ∈ settled, ¬ ReachesCycle ancestry other)
    (distinct : ((before ++ (name, parents) :: after).map Prod.fst).Nodup) :
    name ∈ circularFrom ancestry skipped settled (before ++ (name, parents) :: after) ↔
      ReachesCycle ancestry name ∧ name ∉ skipped ∧
      ∀ earlier ∈ before,
        earlier.1 ∈ circularFrom ancestry skipped settled (before ++ (name, parents) :: after) →
        name ∉ earlier.2 := by
  -- Induction on what stands before: a report there adds to the names that are passed over.
  induction before generalizing skipped settled with
  | nil =>
    have later : name ∉ after.map Prod.fst := (List.nodup_cons.1 distinct).1
    obtain ⟨settled', -, ⟨counts, circular, same⟩ | ⟨passed, same⟩⟩ :=
      circularFrom_step harmless name parents after
    · rw [List.nil_append, same]
      simp [circular, counts]
    · rw [List.nil_append, same]
      exact iff_of_false (not_mem_circularFrom later skipped settled') fun reported =>
        passed reported.2.1 reported.1
  | cons first before ih =>
    obtain ⟨own, grandparents⟩ := first
    have different : own ∉ (before ++ (name, parents) :: after).map Prod.fst :=
      (List.nodup_cons.1 distinct).1
    have rest := (List.nodup_cons.1 distinct).2
    obtain ⟨settled', kept, ⟨-, -, same⟩ | ⟨-, same⟩⟩ :=
      circularFrom_step harmless own grandparents (before ++ (name, parents) :: after)
    · rw [List.cons_append, same]
      have other : name ≠ own := by
        rintro rfl
        exact different (by simp)
      have apart : ∀ earlier ∈ before, earlier.1 ≠ own := by
        rintro earlier member rfl
        exact different (List.mem_map_of_mem (List.mem_append_left _ member))
      rw [List.mem_cons, or_iff_right other, ih kept rest, List.forall_mem_cons]
      generalize circularFrom ancestry (own :: grandparents ++ skipped) settled'
        (before ++ (name, parents) :: after) = reported
      have skips : name ∉ own :: grandparents ++ skipped ↔ name ∉ grandparents ∧ name ∉ skipped := by
        simp [other]
      have passed : (∀ earlier ∈ before, earlier.1 ∈ own :: reported → name ∉ earlier.2) ↔
          ∀ earlier ∈ before, earlier.1 ∈ reported → name ∉ earlier.2 :=
        forall₂_congr fun earlier member => by simp [apart earlier member]
      rw [skips, passed]
      constructor
      · rintro ⟨circular, ⟨new, free⟩, earlier⟩
        exact ⟨circular, free, fun _ => new, earlier⟩
      · rintro ⟨circular, free, new, earlier⟩
        exact ⟨circular, ⟨new List.mem_cons_self, free⟩, earlier⟩
    · rw [List.cons_append, same, ih kept rest]
      simp [not_mem_circularFrom different]

end Searches

section Diagram

def inheritance (diagram : DiagramDecl) : Ancestry := ancestry (countedEntities diagram)

def circularFinding (entity : EntityDecl) : Finding :=
  ⟨.circularInheritance entity.name, entity.span⟩

def circularFindings (diagram : DiagramDecl) : List Finding :=
  (diagramFindings diagram).filter (·.violation.rule = .circularInheritance)

variable {diagram : DiagramDecl} {entity : EntityDecl}

theorem map_fst_inheritance (diagram : DiagramDecl) :
    (inheritance diagram).map Prod.fst = (countedEntities diagram).map (·.name) := by
  rw [inheritance, ancestry, List.map_map]
  rfl

theorem circularFindings_eq (diagram : DiagramDecl) :
    circularFindings diagram = ((countedEntities diagram).filter
      (·.name ∈ circularNames (inheritance diagram))).map circularFinding :=
  filter_circularInheritance diagram

theorem mem_circularFindings (counted : entity ∈ countedEntities diagram) :
    circularFinding entity ∈ circularFindings diagram ↔
      entity.name ∈ circularNames (inheritance diagram) := by
  rw [circularFindings_eq, List.mem_map]
  constructor
  · rintro ⟨other, member, same⟩
    have name : other.name = entity.name :=
      Option.some.inj (congrArg (fun finding => finding.violation.entity?) same)
    rw [← name]
    exact of_decide_eq_true (List.mem_filter.1 member).2
  · intro reported
    exact ⟨entity, List.mem_filter.2 ⟨counted, decide_eq_true reported⟩, rfl⟩

theorem mem_circularFindings_iff {before after : List EntityDecl}
    (whole : countedEntities diagram = before ++ entity :: after) :
    circularFinding entity ∈ circularFindings diagram ↔
      ReachesCycle (inheritance diagram) entity.name ∧
      ∀ earlier ∈ before, circularFinding earlier ∈ circularFindings diagram →
        entity.name ∉ earlier.extendsNames := by
  have split : inheritance diagram =
      ancestry before ++ (entity.name, entity.extendsNames) :: ancestry after := by
    rw [inheritance, whole, ancestry, List.map_append]
    rfl
  have distinct := nodup_countedEntities diagram
  rw [← map_fst_inheritance, split] at distinct
  have names : circularNames (inheritance diagram) = circularFrom (inheritance diagram) [] []
      (ancestry before ++ (entity.name, entity.extendsNames) :: ancestry after) := by
    rw [← split]
    rfl
  have counted {other : EntityDecl} (member : other ∈ before ++ entity :: after) :
      circularFinding other ∈ circularFindings diagram ↔
        other.name ∈ circularNames (inheritance diagram) :=
    mem_circularFindings (whole ▸ member)
  rw [counted (by simp), names, mem_circularFrom (by simp) distinct, ← names]
  constructor
  · rintro ⟨above, -, passed⟩
    refine ⟨above, fun earlier member reported => ?_⟩
    exact passed (earlier.name, earlier.extendsNames) (List.mem_map_of_mem member)
      ((counted (List.mem_append_left _ member)).1 reported)
  · rintro ⟨above, passed⟩
    refine ⟨above, List.not_mem_nil, fun entry member reported => ?_⟩
    obtain ⟨earlier, front, rfl⟩ := List.mem_map.1 member
    exact passed earlier front ((counted (List.mem_append_left _ front)).2 reported)

theorem circularFindings_sublist (diagram : DiagramDecl) :
    (circularFindings diagram).Sublist ((countedEntities diagram).map circularFinding) := by
  rw [circularFindings_eq]
  exact List.filter_sublist.map circularFinding

theorem exists_entity_of_onCycle {name : String} (cycle : OnCycle (inheritance diagram) name) :
    ∃ entity ∈ countedEntities diagram, entity.name = name := by
  obtain ⟨parent, ⟨up, -⟩, -⟩ := TransGen.head'_iff.1 cycle
  obtain ⟨entry, member, same⟩ := List.lookup_isSome_iff.1 (isSome_lookup up)
  obtain ⟨entity, counted, rfl⟩ := List.mem_map.1 member
  exact ⟨entity, counted, (beq_iff_eq.1 same).symm⟩

theorem circularFindings_eq_nil_iff (diagram : DiagramDecl) :
    circularFindings diagram = [] ↔ ∀ name, ¬ OnCycle (inheritance diagram) name := by
  -- The first name on a cycle is reported, since no earlier one passes it over.
  constructor
  · intro quiet name cycle
    obtain ⟨entity, counted, rfl⟩ := exists_entity_of_onCycle cycle
    obtain ⟨before, after, whole⟩ := List.append_of_mem counted
    have reported : circularFinding entity ∈ circularFindings diagram := by
      rw [mem_circularFindings_iff whole, quiet]
      exact ⟨⟨entity.name, .refl, cycle⟩, fun _ _ absent => nomatch absent⟩
    rw [quiet] at reported
    cases reported
  · intro acyclic
    rw [List.eq_nil_iff_forall_not_mem]
    intro finding found
    obtain ⟨entity, counted, rfl⟩ :=
      List.mem_map.1 ((circularFindings_sublist diagram).subset found)
    obtain ⟨before, after, whole⟩ := List.append_of_mem counted
    have circular := ((mem_circularFindings_iff whole).1 found).1
    exact forall_not_reachesCycle.2 acyclic entity.name circular

/-- Circular inheritance is reported for the entities that reach a cycle, in the order of their
first declarations and at these, but not for parents of an entity that was reported before. So there
is no report exactly if the graph has no cycle. Behind this are walks that end after finitely
many looks, and whose verdicts do not depend on what earlier walks have settled. -/
theorem circularInheritance_exact (diagram : DiagramDecl) :
    ((countedEntities diagram).map (·.name)).Nodup ∧
    (countedEntities diagram).Sublist ((entityDecls diagram.body).map (·.decl)) ∧
    (∀ name, (countedEntities diagram).find? (·.name = name) =
      ((entityDecls diagram.body).map (·.decl)).find? (·.name = name)) ∧
    (circularFindings diagram).Sublist ((countedEntities diagram).map circularFinding) ∧
    (∀ before entity after, countedEntities diagram = before ++ entity :: after →
      (circularFinding entity ∈ circularFindings diagram ↔
        ReachesCycle (inheritance diagram) entity.name ∧
        ∀ earlier ∈ before, circularFinding earlier ∈ circularFindings diagram →
          entity.name ∉ earlier.extendsNames)) ∧
    (circularFindings diagram = [] ↔ ∀ name, ¬ OnCycle (inheritance diagram) name) ∧
    ∀ ancestry : Ancestry,
      (WellFounded fun next walk => Walk.look ancestry walk = .further next) ∧
      ∀ starts name, (walkFrom ancestry (settledAfter ancestry starts) name).circular = true ↔
        ReachesCycle ancestry name := by
  refine ⟨nodup_countedEntities diagram, countedEntities_sublist diagram,
    find?_countedEntities diagram, circularFindings_sublist diagram, ?_,
    circularFindings_eq_nil_iff diagram, ?_⟩
  · intro before entity after whole
    exact mem_circularFindings_iff whole
  · intro ancestry
    constructor
    · exact Walk.wellFounded_look ancestry
    · intro starts name
      exact (walkFrom_exact (not_reachesCycle_of_settledAfter starts) name).1

/-- Of two names on a cycle only the first is reported, and a name with a parent on it is too. -/
theorem circularInheritance_crossed :
    let span : Span := ⟨.start, 0⟩
    let entity (name : String) (parents : List String) : EntityDecl :=
      ⟨[], .classType, name, none, parents, [], [], span⟩
    let diagram : DiagramDecl := ⟨"d", .classes, [.declaration (.entity (entity "A" ["B"])),
      .declaration (.entity (entity "B" ["A"])), .declaration (.entity (entity "C" ["X", "A"]))], span⟩
    circularFinding (entity "A" ["B"]) ∈ circularFindings diagram ∧
    circularFinding (entity "B" ["A"]) ∉ circularFindings diagram ∧
    circularFinding (entity "C" ["X", "A"]) ∈ circularFindings diagram := by
  intro span entity diagram
  obtain ⟨-, -, -, -, reported, -⟩ := circularInheritance_exact diagram
  have up : Extends (inheritance diagram) "A" "B" := ⟨by decide +kernel, by decide +kernel⟩
  have down : Extends (inheritance diagram) "B" "A" := ⟨by decide +kernel, by decide +kernel⟩
  have above : Extends (inheritance diagram) "C" "A" := ⟨by decide +kernel, by decide +kernel⟩
  have cycle : ReachesCycle (inheritance diagram) "A" := ⟨"A", .refl, .tail (.single up) down⟩
  have first := (reported [] (entity "A" ["B"]) _ rfl).2 ⟨cycle, by simp⟩
  refine ⟨first, fun second => ?_, ?_⟩
  · have passed := ((reported [entity "A" ["B"]] (entity "B" ["A"]) _ rfl).1 second).2
    exact absurd (passed _ List.mem_cons_self first) (by decide)
  · refine (reported [entity "A" ["B"], entity "B" ["A"]] _ [] rfl).2 ⟨cycle.extend above, ?_⟩
    simp [entity]

end Diagram

/-- `C` is above the cycle but no parent of `A`; `B` is a parent of `A`, and `D` is only a diamond. -/
example : circularNames [("A", ["B"]), ("B", ["A"]), ("C", ["X", "A"]), ("D", ["E", "F"]),
    ("E", ["G"]), ("F", ["G", "G"]), ("G", [])] = ["A", "C"] := by decide +kernel

end ArchDiagram.Analysis
