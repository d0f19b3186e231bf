import ArchDiagram.Proofs.Ensures
import ArchDiagram.Proofs.Reports
import ArchDiagram.Proofs.Spans

/-!
Where the nodes of a tree stand, whatever was reported on the way. A node that took a token ends
where its last token does. One that took none is empty and stands at the token that it was looked
for at, which may lie behind the node above it.
-/

namespace ArchDiagram

open Syntax (TopLevel)

namespace SpanTree

inductive All (holds : Span → Prop) : SpanTree → Prop
  | node {span : Span} {below : List SpanTree} : holds span → (∀ tree ∈ below, tree.All holds) →
      All holds (.node span below)

/-- No node stops before it starts or holds one that starts before it, and the nodes below it stand
one behind the other. They lie inside it, apart from those that are excepted. -/
inductive NestedBut (excepted : Span → SpanTree → Prop) : SpanTree → Prop
  | node {span : Span} {below : List SpanTree} : span.start.offset ≤ span.stop →
      (∀ tree ∈ below, tree.NestedBut excepted) →
      (∀ tree ∈ below, span.start.offset ≤ tree.span.start.offset) →
      (∀ tree ∈ below, tree.Inside span ∨ excepted span tree) →
      below.Pairwise Before → NestedBut excepted (.node span below)

/-- No node is excepted. -/
abbrev Nested : SpanTree → Prop := NestedBut fun _ _ => False

/-- An empty node behind the one above it. Nothing but its token stands between them, and that the
token is not what was looked for is reported. -/
structure Dangles (tokens : List Token) (errors : List SyntaxError) (whole : Span)
    (tree : SpanTree) : Prop where
  empty : tree.span.stop = tree.span.start.offset
  behind : whole.stop < tree.span.start.offset
  next : ∃ token ∈ tokens, tree.span.start = token.position ∧
    ∀ other ∈ tokens, whole.stop ≤ other.position.offset →
      token.position.offset ≤ other.position.offset
  reported : ∃ error ∈ errors, error.position = tree.span.start

theorem NestedBut.forward {excepted : Span → SpanTree → Prop} {tree : SpanTree}
    (nested : tree.NestedBut excepted) : tree.span.start.offset ≤ tree.span.stop := by
  cases nested with
  | node forward => exact forward

theorem NestedBut.mono {strong weak : Span → SpanTree → Prop} {tree : SpanTree}
    (nested : tree.NestedBut strong) (implies : ∀ span below, strong span below → weak span below) :
    tree.NestedBut weak := by
  induction nested with
  | node forward _ starts inside apart ih =>
    exact .node forward ih starts (fun tree member => (inside tree member).imp_right (implies _ tree))
      apart

theorem Dangles.mono {tokens : List Token} {few more : List SyntaxError} {whole : Span}
    {tree : SpanTree} (dangles : tree.Dangles tokens few whole) (part : few ⊆ more) :
    tree.Dangles tokens more whole where
  empty := dangles.empty
  behind := dangles.behind
  next := dangles.next
  reported := by
    obtain ⟨error, member, there⟩ := dangles.reported
    exact ⟨error, part member, there⟩

end SpanTree

mutual

/-- The spans of nodes, each with that of a node right below it. -/
def SpanTree.links : SpanTree → List (Span × Span)
  | .node span below => SpanTree.linksFrom span below

def SpanTree.linksFrom (span : Span) : List SpanTree → List (Span × Span)
  | [] => []
  | tree :: rest => (span, tree.span) :: (tree.links ++ SpanTree.linksFrom span rest)

end

theorem SpanTree.linksFrom_eq (span : Span) (trees : List SpanTree) :
    SpanTree.linksFrom span trees = trees.flatMap fun tree => (span, tree.span) :: tree.links := by
  induction trees with
  | nil => rfl
  | cons tree rest ih => rw [SpanTree.linksFrom, ih, List.flatMap_cons, List.cons_append]

theorem SpanTree.Nested.links {tree : SpanTree} (nested : tree.Nested) : ∀ link ∈ tree.links,
    link.1.start.offset ≤ link.2.start.offset ∧ link.2.start.offset ≤ link.2.stop ∧
      link.2.stop ≤ link.1.stop := by
  induction nested with
  | node _ below _ inside _ ih =>
    intro link member
    rw [SpanTree.links, SpanTree.linksFrom_eq] at member
    obtain ⟨tree, here, member⟩ := List.mem_flatMap.1 member
    rcases List.mem_cons.1 member with rfl | deeper
    · obtain ⟨starts, stops⟩ := (inside tree here).resolve_right id
      exact ⟨starts, (below tree here).forward, stops⟩
    · exact ih tree here link deeper

def Program.spanTrees (program : Program) : List SpanTree :=
  program.imports.map (fun decl => .node decl.span []) ++ program.diagrams.map (·.spanTree)

namespace Syntax

open SpanTree

theorem mem_spanTrees_of_parts {parts : List TopLevel} {span : Span} {tree : SpanTree}
    (member : tree ∈ Program.spanTrees ⟨importsOf parts, diagramsOf parts, span⟩) :
    tree ∈ parts.flatMap (·.spanTrees) := by
  refine List.mem_flatMap.2 ?_
  rcases List.mem_append.1 member with imported | drawn
  · obtain ⟨decl, inside, rfl⟩ := List.mem_map.1 imported
    obtain ⟨part, here, shown⟩ := List.mem_filterMap.1 inside
    cases part with
    | imported own =>
      obtain rfl := Option.some.inj shown
      exact ⟨_, here, List.mem_singleton.2 rfl⟩
    | diagram | stray => cases shown
  · obtain ⟨decl, inside, rfl⟩ := List.mem_map.1 drawn
    obtain ⟨part, here, shown⟩ := List.mem_filterMap.1 inside
    cases part with
    | diagram own =>
      obtain rfl := Option.some.inj shown
      exact ⟨_, here, List.mem_singleton.2 rfl⟩
    | imported | stray => cases shown

namespace Cursor

/-- A cursor on its way through tokens that stand one behind the other. A token is left, or it was
taken and starts before the end of the last one that was. -/
structure Along (tokens : List Token) (c : Cursor) : Prop where
  known : ∀ token ∈ c.remaining, token ∈ tokens
  taken : ∀ token ∈ tokens, token ∈ c.remaining ∨ token.position.offset < c.lastStop
  forward : ∀ token ∈ c.rest, token.position.offset < token.stop
  apart : c.remaining.Pairwise fun token next => token.stop ≤ next.position.offset
  lastStop_le : c.lastStop ≤ c.current.position.offset

namespace Along

variable {tokens : List Token} {c d : Cursor}

theorem report {error : SyntaxError.Cause} {token : Token} (along : c.Along tokens) :
    (c.report error token).Along tokens :=
  ⟨along.known, along.taken, along.forward, along.apart, along.lastStop_le⟩

theorem forward_current (along : c.Along tokens) (more : c.rest ≠ []) :
    c.current.position.offset < c.current.stop :=
  along.forward c.current (by simp [rest_eq_cons more])

theorem advance (along : c.Along tokens) : c.advance.Along tokens := by
  by_cases more : c.rest = []
  · rwa [advance_of_nil more]
  · have apart := along.apart
    have taken := along.taken
    have known := along.known
    have forward := along.forward_current more
    have last := along.lastStop_le
    have next := current_mem_remaining c.advance
    rw [remaining_of_more more] at apart taken known
    obtain ⟨behind, apart⟩ := List.pairwise_cons.1 apart
    refine ⟨fun token member => known token (List.mem_cons_of_mem _ member), ?_, ?_, apart, ?_⟩
    · intro token member
      rw [lastStop_advance more]
      rcases taken token member with left | before
      · rcases List.mem_cons.1 left with rfl | later
        · exact .inr forward
        · exact .inl later
      · exact .inr (by omega)
    · intro token member
      exact along.forward token (by rw [rest_eq_cons more]; exact List.mem_cons_of_mem _ member)
    · rw [lastStop_advance more]
      exact behind _ next

theorem reaches (along : c.Along tokens) (reached : c.Reaches d) : d.Along tokens := by
  induction reached with
  | refl => exact along
  | advance _ ih => exact ih.advance
  | report _ _ ih => exact ih.report
  | reportTaken _ _ ih => exact ih.advance.report

theorem moved (along : c.Along tokens) (reached : c.Reaches d) :
    (d.rest.length = c.rest.length ∧ d.lastStop = c.lastStop) ∨
      (d.rest.length < c.rest.length ∧ c.current.stop ≤ d.lastStop) := by
  -- A token is taken alone or together with a report about it, which is the same step here.
  have step {m : Cursor} (before : c.Reaches m)
      (so : (m.rest.length = c.rest.length ∧ m.lastStop = c.lastStop) ∨
        (m.rest.length < c.rest.length ∧ c.current.stop ≤ m.lastStop)) :
      (m.advance.rest.length = c.rest.length ∧ m.advance.lastStop = c.lastStop) ∨
        (m.advance.rest.length < c.rest.length ∧ c.current.stop ≤ m.advance.lastStop) := by
    by_cases more : m.rest = []
    · rwa [advance_of_nil more]
    · have shorter := length_advance_lt more
      right
      rw [lastStop_advance more]
      rcases so with ⟨same, -⟩ | ⟨less, taken⟩
      · rw [current_eq_of_reaches before same]
        exact ⟨by omega, Nat.le_refl _⟩
      · have ahead := (along.reaches before).forward_current more
        have last := (along.reaches before).lastStop_le
        exact ⟨by omega, by omega⟩
  induction reached with
  | refl => exact .inl ⟨rfl, rfl⟩
  | advance before ih => exact step before ih
  | report _ _ ih => exact ih
  | reportTaken _ before ih => exact step before ih

theorem forward_of_less (along : c.Along tokens) (less : d.rest.length < c.rest.length) :
    c.current.position.offset < c.current.stop := by
  refine along.forward_current fun empty => ?_
  simp [empty] at less

theorem lastStop_mono (along : c.Along tokens) (reached : c.Reaches d) :
    c.lastStop ≤ d.lastStop := by
  rcases along.moved reached with ⟨-, same⟩ | ⟨less, taken⟩
  · exact same.ge
  · have forward := along.forward_of_less less
    have last := along.lastStop_le
    omega

theorem current_mono (along : c.Along tokens) (reached : c.Reaches d) :
    c.current.position.offset ≤ d.current.position.offset := by
  rcases along.moved reached with ⟨same, -⟩ | ⟨less, taken⟩
  · rw [current_eq_of_reaches reached same]
  · have forward := along.forward_of_less less
    have last := (along.reaches reached).lastStop_le
    omega

theorem current_le (along : c.Along tokens) {token : Token} (member : token ∈ tokens)
    (behind : c.lastStop ≤ token.position.offset) :
    c.current.position.offset ≤ token.position.offset := by
  rcases along.taken token member with left | before
  · by_cases more : c.rest = []
    · rw [remaining_of_nil more, List.mem_singleton] at left
      simp [left, current, more]
    · have apart := along.apart
      rw [remaining_of_more more] at apart left
      rcases List.mem_cons.1 left with rfl | later
      · exact Nat.le_refl _
      · have ahead := (List.pairwise_cons.1 apart).1 token later
        have forward := along.forward_current more
        omega
  · omega

end Along

end Cursor

/-- Reading from one cursor to another lays out trees: they stand between the cursors, one behind the
other, each node of them starting at a token and nested but for what dangles. Where a tree does not
end with a token that was taken, it is an empty one at the last cursor, at which an error is
reported. -/
structure Laid (tokens : List Token) (c : Cursor) (trees : List SpanTree) (d : Cursor) : Prop where
  along : c.Along tokens
  reached : c.Reaches d
  nested : ∀ tree ∈ trees, tree.NestedBut fun whole below => below.Dangles tokens d.errors whole
  begins : ∀ tree ∈ trees, tree.All fun span => ∃ token ∈ tokens, span.start = token.position
  after : ∀ tree ∈ trees, c.current.position.offset ≤ tree.span.start.offset
  ends : ∀ tree ∈ trees, tree.span.stop ≤ d.lastStop ∨
    tree.span = ⟨d.current.position, d.current.position.offset⟩ ∧
      ∃ error ∈ d.errors, error.position = d.current.position
  apart : trees.Pairwise Before

namespace Laid

variable {tokens : List Token} {c m d : Cursor} {trees others : List SpanTree}

theorem nil (along : c.Along tokens) (reached : c.Reaches d) : Laid tokens c [] d :=
  ⟨along, reached, by simp, by simp, by simp, by simp, .nil⟩

theorem along_end (laid : Laid tokens c trees d) : d.Along tokens := laid.along.reaches laid.reached

theorem nested_mono (laid : Laid tokens c trees m) (reached : m.Reaches d) :
    ∀ tree ∈ trees, tree.NestedBut fun whole below => below.Dangles tokens d.errors whole :=
  fun tree member => (laid.nested tree member).mono fun _ _ dangles =>
    dangles.mono reached.errors_suffix.subset

theorem ends_mono (laid : Laid tokens c trees m) (reached : m.Reaches d) :
    ∀ tree ∈ trees, tree.span.stop ≤ d.lastStop ∨
      tree.span = ⟨d.current.position, d.current.position.offset⟩ ∧
        ∃ error ∈ d.errors, error.position = d.current.position := by
  intro tree member
  have along := laid.along_end
  rcases laid.ends tree member with inside | ⟨empty, error, reported, there⟩
  · exact .inl (inside.trans (along.lastStop_mono reached))
  · rcases along.moved reached with ⟨same, -⟩ | ⟨less, taken⟩
    · rw [Cursor.current_eq_of_reaches reached same]
      exact .inr ⟨empty, error, reached.errors_suffix.subset reported, there⟩
    · have forward := along.forward_of_less less
      rw [empty]
      exact .inl (by dsimp only; omega)

theorem append (left : Laid tokens c trees m) (right : Laid tokens m others d) :
    Laid tokens c (trees ++ others) d where
  along := left.along
  reached := left.reached.trans right.reached
  nested := List.forall_mem_append.2 ⟨left.nested_mono right.reached, right.nested⟩
  begins := List.forall_mem_append.2 ⟨left.begins, right.begins⟩
  after := List.forall_mem_append.2 ⟨left.after, fun tree member =>
    (left.along.current_mono left.reached).trans (right.after tree member)⟩
  ends := List.forall_mem_append.2 ⟨left.ends_mono right.reached, right.ends⟩
  apart := by
    refine List.pairwise_append.2 ⟨left.apart, right.apart, fun tree here next there => ?_⟩
    have last := left.along_end.lastStop_le
    have after := right.after next there
    rw [SpanTree.Before]
    rcases left.ends tree here with inside | ⟨empty, -⟩
    · omega
    · rw [empty]
      exact after

theorem skip (laid : Laid tokens c trees m) (reached : m.Reaches d) : Laid tokens c trees d := by
  simpa using laid.append (.nil laid.along_end reached)

/-- A node over all that was read. Its own token was taken, or it is empty and was reported. -/
theorem node (laid : Laid tokens c trees d) (handled : c.Handled d) :
    Laid tokens c
      [.node ⟨c.current.position, max d.lastStop c.current.position.offset⟩ trees] d where
  along := laid.along
  reached := laid.reached
  nested := by
    refine List.forall_mem_singleton.2
      (.node (Nat.le_max_right _ _) laid.nested laid.after (fun tree member => ?_) laid.apart)
    have after := laid.after tree member
    rw [SpanTree.Inside]
    rcases laid.ends tree member with inside | ⟨empty, reported⟩
    · exact .inl ⟨after, inside.trans (Nat.le_max_left _ _)⟩
    · -- An empty tree at the cursor is inside if no blank stands before the token there.
      by_cases within : d.current.position.offset ≤ max d.lastStop c.current.position.offset
      · exact .inl ⟨after, by rwa [empty]⟩
      · refine .inr ⟨by rw [empty], by rw [empty]; exact not_le.1 within, ?_, by rwa [empty]⟩
        refine ⟨d.current, laid.along_end.known _ (Cursor.current_mem_remaining d), by rw [empty],
          fun other member behind => laid.along_end.current_le member ?_⟩
        exact (Nat.le_max_left _ _).trans behind
  begins := List.forall_mem_singleton.2 (.node
    ⟨c.current, laid.along.known _ (Cursor.current_mem_remaining c), rfl⟩ laid.begins)
  after := List.forall_mem_singleton.2 (Nat.le_refl _)
  ends := by
    refine List.forall_mem_singleton.2 ?_
    have last := laid.along.lastStop_le
    rw [SpanTree.span]
    rcases laid.along.moved laid.reached with ⟨same, still⟩ | ⟨less, taken⟩
    · -- Nothing was taken, so the node is empty at its own token.
      rcases handled with taken | reported
      · omega
      · rw [Cursor.current_eq_of_reaches laid.reached same, still, Nat.max_eq_right last]
        exact .inr ⟨rfl, reported⟩
    · have forward := laid.along.forward_of_less less
      exact .inl (by dsimp only; omega)
  apart := List.pairwise_singleton _ _

end Laid

end Syntax

end ArchDiagram
