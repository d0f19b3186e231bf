import ArchDiagram.Path.Pattern
import ArchDiagram.Proofs.Ways

/-!
What patterns select. A pattern asks the file system for one path after the other, and it has a
result if all of these questions are answered. The files among the result are told by their names
alone: they are those whose names below the directory fit the parts of the pattern.
-/

namespace ArchDiagram

/-- A list that is there if and only if some questions are answered, and what it has then. -/
structure Gathers {ε α : Type} (answer : Except ε (List α)) (asked : Prop) (listed : α → Prop) :
    Prop where
  given : asked → ∃ list, answer = .ok list
  exact_ : ∀ list, answer = .ok list → asked ∧ ∀ x, x ∈ list ↔ listed x

namespace Gathers

variable {ε α β : Type} {answer : Except ε (List α)} {asked : Prop} {listed : α → Prop}

theorem ok (list : List α) : Gathers (ε := ε) (.ok list) True (· ∈ list) where
  given _ := ⟨list, rfl⟩
  exact_ _ same := ⟨trivial, fun x => by rw [Except.ok.inj same]⟩

theorem not_asked {fault : ε} (gathers : Gathers (.error fault) asked listed) : ¬ asked := by
  intro yes
  obtain ⟨list, there⟩ := gathers.given yes
  cases there

/-- An answer fails if and only if some question that it depends on has no answer. -/
theorem fails_iff (gathers : Gathers answer asked listed) :
    (∃ fault, answer = .error fault) ↔ ¬ asked := by
  cases answer with
  | error fault => exact iff_of_true ⟨fault, rfl⟩ gathers.not_asked
  | ok list => exact iff_of_false nofun (not_not_intro (gathers.exact_ list rfl).1)

theorem congr (gathers : Gathers answer asked listed) {asked' : Prop} {listed' : α → Prop}
    (same : asked ↔ asked') (equal : asked → ∀ x, listed x ↔ listed' x) :
    Gathers answer asked' listed' where
  given yes := gathers.given (same.2 yes)
  exact_ list is :=
    have there := gathers.exact_ list is
    ⟨same.1 there.1, fun x => (there.2 x).trans (equal there.1 x)⟩

theorem mapError (gathers : Gathers answer asked listed) {ε' : Type} (failure : ε → ε') :
    Gathers (answer.mapError failure) asked listed := by
  cases answer with
  | error fault => exact ⟨fun yes => absurd yes gathers.not_asked, nofun⟩
  | ok list =>
    refine ⟨fun _ => ⟨list, rfl⟩, fun other is => gathers.exact_ other ?_⟩
    cases is
    rfl

theorem map {γ : Type} (answer : Except ε γ) (f : γ → List α) :
    Gathers (answer.map f) (∃ x, answer = .ok x) fun y => ∃ x, answer = .ok x ∧ y ∈ f x := by
  cases answer with
  | error fault => exact ⟨nofun, nofun⟩
  | ok x => exact (ok (f x)).congr (iff_of_true trivial ⟨x, rfl⟩) fun _ y => by simp

theorem mapM {steps : α → Except ε (List β)} {asks : α → Prop} {lists : α → β → Prop}
    (each : ∀ x, Gathers (steps x) (asks x) (lists x)) (xs : List α) :
    Gathers (do return (← xs.mapM steps).flatten) (∀ x ∈ xs, asks x)
      fun y => ∃ x ∈ xs, lists x y := by
  induction xs with
  | nil =>
    rw [List.mapM_nil]
    exact (ok []).congr (by simp) fun _ y => by simp
  | cons x rest ih =>
    rw [List.mapM_cons]
    cases here : steps x with
    | error fault =>
      have refused : ¬ asks x := (each x).fails_iff.1 ⟨fault, here⟩
      exact ⟨fun yes => absurd (yes x List.mem_cons_self) refused, nofun⟩
    | ok first =>
      obtain ⟨askedHere, listedHere⟩ := (each x).exact_ first here
      cases others : rest.mapM steps with
      | error fault =>
        rw [others] at ih
        exact ⟨fun yes => absurd (fun y inside => yes y (.tail _ inside)) ih.not_asked, nofun⟩
      | ok more =>
        rw [others] at ih
        obtain ⟨askedThere, listedThere⟩ := ih.exact_ more.flatten rfl
        refine (ok (first ++ more.flatten)).congr ?_ fun _ y => ?_
        · exact iff_of_true trivial (List.forall_mem_cons.2 ⟨askedHere, askedThere⟩)
        · rw [List.mem_append, listedHere, listedThere]
          simp

theorem flatten (first : Gathers answer asked listed) {steps : α → Except ε (List β)}
    {asks : α → Prop} {lists : α → β → Prop} (each : ∀ x, Gathers (steps x) (asks x) (lists x)) :
    Gathers (do return (← (← answer).mapM steps).flatten) (asked ∧ ∀ x, listed x → asks x)
      fun y => ∃ x, listed x ∧ lists x y := by
  cases answer with
  | error fault => exact ⟨fun yes => absurd yes.1 first.not_asked, nofun⟩
  | ok list =>
    obtain ⟨yes, same⟩ := first.exact_ list rfl
    refine (mapM each list).congr ?_ fun _ y => ?_
    · simp only [same, yes, true_and]
    · simp only [same]

theorem filterAuxM_eq (p : α → Except ε Bool) (xs acc : List α) :
    (∀ x ∈ xs, ∃ holds, p x = .ok holds) ∧
      (xs.filterAuxM p acc = .ok ((xs.filter (p · matches .ok true)).reverse ++ acc)) ∨
    (∃ x ∈ xs, ∃ fault, p x = .error fault) ∧ ∃ fault, xs.filterAuxM p acc = .error fault := by
  induction xs generalizing acc with
  | nil => exact .inl ⟨nofun, rfl⟩
  | cons x rest ih =>
    rw [List.filterAuxM]
    cases here : p x with
    | error fault => exact .inr ⟨⟨x, List.mem_cons_self, fault, here⟩, fault, rfl⟩
    | ok holds =>
      rcases ih (bif holds then x :: acc else acc) with
        ⟨fine, there⟩ | ⟨⟨y, inside, fault, bad⟩, more⟩
      · refine .inl ⟨List.forall_mem_cons.2 ⟨⟨holds, here⟩, fine⟩, ?_⟩
        change rest.filterAuxM p (bif holds then x :: acc else acc) = _
        rw [there]
        cases holds <;> simp [here]
      · exact .inr ⟨⟨y, .tail _ inside, fault, bad⟩, more⟩

theorem filterM (first : Gathers answer asked listed) (p : α → Except ε Bool) :
    Gathers (do (← answer).filterM p) (asked ∧ ∀ x, listed x → ∃ holds, p x = .ok holds)
      fun x => listed x ∧ p x = .ok true := by
  cases answer with
  | error fault => exact ⟨fun yes => absurd yes.1 first.not_asked, nofun⟩
  | ok list =>
    obtain ⟨yes, same⟩ := first.exact_ list rfl
    change Gathers (List.filterM p list) _ _
    unfold List.filterM
    simp only [← same, yes, true_and]
    rcases filterAuxM_eq p list [] with
      ⟨fine, there⟩ | ⟨⟨x, inside, fault, bad⟩, fault', there⟩
    · rw [there]
      refine (ok _).congr (iff_of_true trivial fine) fun _ x => ?_
      simp only [List.append_nil, List.reverse_reverse, List.mem_filter]
      refine and_congr_right fun _ => ?_
      cases p x with
      | error => simp
      | ok holds => cases holds <;> simp
    · rw [there]
      refine ⟨fun fine => ?_, nofun⟩
      obtain ⟨holds, good⟩ := fine x inside
      cases bad.symm.trans good

end Gathers

namespace Pattern

section Steps

variable (disk : Disk)

/-- A part leads from a path to another one. A part with others behind it goes through directories
only. -/
inductive Steps (through : Bool) : PatternPart → Path → Path → Prop
  | anyDepth {path : Path} {node : FileNode} {place : List String} :
      disk.node? path = .ok node → place ∈ node.directories →
      disk.isDirectory (path.append place) = .ok true →
      Steps through .anyDepth path (path.append place)
  | parent {path : Path} : Steps through .parent path (path.child "..")
  | name {path : Path} {text : String} :
      (if through then disk.isDirectory (path.child text) else disk.pathExists (path.child text)) =
        .ok true →
      Steps through (.name text) path (path.child text)
  | wildcards {path : Path} {items : List Wildcard} {entries : List (String × FileNode)}
      {name : String} {node : FileNode} :
      disk.node? path = .ok (.directory entries) → (name, node) ∈ entries →
      (through → node.isFile = false) → Wildcard.matchesAll items (Text.codes name) →
      Steps through (.wildcards items) path (path.child name)

/-- The paths that a part asks the file system for. -/
inductive Asks : PatternPart → Path → Path → Prop
  | start {path : Path} : Asks .anyDepth path path
  | below {path : Path} {node : FileNode} {place : List String} :
      disk.node? path = .ok node → place ∈ node.directories →
      Asks .anyDepth path (path.append place)
  | name {path : Path} {text : String} : Asks (.name text) path (path.child text)
  | entries {path : Path} {items : List Wildcard} : Asks (.wildcards items) path path

/-- The file system has an answer for a path. It has none for paths and names that are too long. -/
def Answers (path : Path) : Prop := ∃ found?, disk.find? path = .ok found?

/-- Parts lead from a path to another one, one after the other. -/
def Comes (onlyDirectories : Bool) : List PatternPart → Path → Path → Prop
  | [], path, found => found = path
  | part :: rest, path, found => ∃ next,
      Steps disk (onlyDirectories || !rest.isEmpty) part path next ∧
      Comes onlyDirectories rest next found

/-- Whatever parts ask for is answered, wherever they lead. -/
def Answered (onlyDirectories : Bool) : List PatternPart → Path → Prop
  | [], _ => True
  | part :: rest, path => (∀ asked, Asks disk part path asked → Answers disk asked) ∧
      ∀ next, Steps disk (onlyDirectories || !rest.isEmpty) part path next →
        Answered onlyDirectories rest next

variable {disk : Disk}

end Steps

/-- A part takes a name. Nothing but a double dot stands for the way back. -/
inductive Takes : PatternPart → String → Prop
  | parent : Takes .parent ".."
  | name {text : String} : Takes (.name text) text
  | wildcards {items : List Wildcard} {name : String} :
      Wildcard.matchesAll items (Text.codes name) → name ≠ ".." → Takes (.wildcards items) name

/-- Names that fit parts: every part takes one name, in their order, but for two stars, which stand
for any number of names on the way, none among them. -/
inductive Fits : List PatternPart → List String → Prop
  | last {part : PatternPart} {name : String} : Takes part name → Fits [part] [name]
  | next {part : PatternPart} {rest : List PatternPart} {name : String} {names : List String} :
      Takes part name → Fits rest names → Fits (part :: rest) (name :: names)
  | skip {rest : List PatternPart} {names : List String} :
      Fits rest names → Fits (.anyDepth :: rest) names
  | deeper {rest : List PatternPart} {name : String} {names : List String} :
      name ≠ ".." → Fits (.anyDepth :: rest) names → Fits (.anyDepth :: rest) (name :: names)

theorem Fits.nonempty {parts : List PatternPart} {names : List String} (fits : Fits parts names) :
    parts ≠ [] ∧ names ≠ [] := by
  induction fits with
  | last | next | deeper => exact ⟨List.cons_ne_nil _ _, List.cons_ne_nil _ _⟩
  | skip _ ih => exact ⟨List.cons_ne_nil _ _, ih.2⟩

section Names

variable {disk : Disk}

theorem append_nil (path : Path) : path.append [] = path := by simp [Path.append]

theorem append_cons (path : Path) (name : String) (names : List String) :
    path.append (name :: names) = (path.child name).append names := by
  simp [Path.append, Path.child]

theorem Steps.names {through : Bool} {part : PatternPart} {path next : Path}
    (named : disk.root.Named) (steps : Steps disk through part path next) :
    (∃ name, Takes part name ∧ next = path.child name) ∨
    part = .anyDepth ∧ disk.isDirectory next = .ok true ∧
      ∃ place, ".." ∉ place ∧ next = path.append place := by
  cases steps with
  | anyDepth there inside isDirectory =>
    have back := (Disk.named_of_node? named there).not_mem_of_directories _ inside
    exact .inr ⟨rfl, isDirectory, _, back, rfl⟩
  | parent => exact .inl ⟨_, .parent, rfl⟩
  | name => exact .inl ⟨_, .name, rfl⟩
  | wildcards there inside _ fits =>
    cases Disk.named_of_node? named there with
    | directory _ others => exact .inl ⟨_, .wildcards fits (others _ inside), rfl⟩

end Names

end Pattern

end ArchDiagram
