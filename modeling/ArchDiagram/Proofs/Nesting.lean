import ArchDiagram.Proofs.Progress
import ArchDiagram.Proofs.Simulation.Readers
import ArchDiagram.Proofs.WithinBudget

/-!
Trees are of bounded height. A generic type has fewer than a hundred packages and generic types
above it, a package at most a hundred packages, and then it is empty. What was read before a
declaration leaves no trace on the levels that are left for it: the tokens ahead alone decide what
is read.
-/

namespace ArchDiagram

inductive NodeKind
  | package
  | generic
  | other
deriving DecidableEq

/-- What is left of a tree if only the kinds of its nodes are kept. -/
inductive NodeTree
  | node (kind : NodeKind) (below : List NodeTree)

namespace NodeTree

def kind : NodeTree → NodeKind
  | node kind _ => kind

def children : NodeTree → List NodeTree
  | node _ below => below

/-- A node stands in a tree, below the given ones. -/
inductive Under : NodeTree → List NodeKind → NodeTree → Prop
  | root (tree : NodeTree) : Under tree [] tree
  | child {kind : NodeKind} {below : List NodeTree} {tree node : NodeTree} {above : List NodeKind} :
      tree ∈ below → Under tree above node → Under (.node kind below) (kind :: above) node

/-- A tree has at most so many nodes one below the other. -/
inductive HeightLe : Nat → NodeTree → Prop
  | node {height : Nat} {kind : NodeKind} {below : List NodeTree} :
      (∀ tree ∈ below, HeightLe height tree) → HeightLe (height + 1) (.node kind below)

/-- A tree below so many packages and generic types, of which so many are packages, is nested no
deeper than the limit allows. -/
inductive Bounded : (levels packages : Nat) → NodeTree → Prop
  | generic {levels packages : Nat} {below : List NodeTree} : levels < Syntax.nestingLimit →
      (∀ tree ∈ below, Bounded (levels + 1) packages tree) →
      Bounded levels packages (.node .generic below)
  | package {levels packages : Nat} {below : List NodeTree} : packages < Syntax.nestingLimit →
      (∀ tree ∈ below, Bounded (levels + 1) (packages + 1) tree) →
      Bounded levels packages (.node .package below)
  | emptied {levels packages : Nat} : packages = Syntax.nestingLimit →
      Bounded levels packages (.node .package [])
  | other {levels packages : Nat} {below : List NodeTree} :
      (∀ tree ∈ below, Bounded levels packages tree) → Bounded levels packages (.node .other below)

end NodeTree

mutual

def TypeExpr.nodeTree : TypeExpr → NodeTree
  | .simple _ _ => .node .other []
  | .generic _ args _ => .node .generic (TypeExpr.nodeTrees args)
  | .nullable inner _ => .node .other [inner.nodeTree]

def TypeExpr.nodeTrees : List TypeExpr → List NodeTree
  | [] => []
  | type :: rest => type.nodeTree :: TypeExpr.nodeTrees rest

end

def ParamDecl.nodeTree (decl : ParamDecl) : NodeTree := .node .other [decl.type.nodeTree]

def Member.nodeTree : Member → NodeTree
  | .field decl =>
    .node .other (decl.type.nodeTree :: decl.defaultValue.toList.map fun _ => .node .other [])
  | .method decl => .node .other (decl.params.map (·.nodeTree) ++ [decl.returnType.nodeTree])
  | .value _ => .node .other []

def Declaration.nodeTree : Declaration → NodeTree
  | .entity decl => .node .other (decl.members.map (·.nodeTree))
  | .relation _ | .note _ | .style _ | .layout _ => .node .other []

mutual

def Item.nodeTree : Item → NodeTree
  | .package _ body _ => .node .package (Item.nodeTrees body)
  | .declaration decl => decl.nodeTree

def Item.nodeTrees : List Item → List NodeTree
  | [] => []
  | item :: rest => item.nodeTree :: Item.nodeTrees rest

end

def DiagramDecl.nodeTree (decl : DiagramDecl) : NodeTree := .node .other (Item.nodeTrees decl.body)

def Program.nodeTree (program : Program) : NodeTree :=
  .node .other (program.imports.map (fun _ => .node .other []) ++
    program.diagrams.map (·.nodeTree))

theorem TypeExpr.nodeTrees_eq (types : List TypeExpr) :
    TypeExpr.nodeTrees types = types.map (·.nodeTree) := by
  induction types with
  | nil => rfl
  | cons type rest ih => rw [TypeExpr.nodeTrees, ih, List.map_cons]

theorem Item.nodeTrees_eq (items : List Item) : Item.nodeTrees items = items.map (·.nodeTree) := by
  induction items with
  | nil => rfl
  | cons item rest ih => rw [Item.nodeTrees, ih, List.map_cons]

namespace NodeTree

/-- What is bounded at the root is bounded everywhere, with the nodes above counted. -/
theorem Under.bounded {tree node : NodeTree} {above : List NodeKind} (under : tree.Under above node)
    {levels packages : Nat} (bounded : tree.Bounded levels packages) :
    node.Bounded (levels + above.countP (· ≠ .other)) (packages + above.count .package) := by
  induction under generalizing levels packages with
  | root => exact bounded
  | @child kind below tree node above member _ ih =>
    have step {more inner : Nat} (bounds : ∀ tree ∈ below, tree.Bounded more inner) :=
      ih (bounds tree member)
    cases bounded with
    | generic _ bounds => simpa [Nat.add_assoc, Nat.add_comm, Nat.add_left_comm] using step bounds
    | package _ bounds => simpa [Nat.add_assoc, Nat.add_comm, Nat.add_left_comm] using step bounds
    | emptied => simp at member
    | other bounds => simpa using step bounds

theorem HeightLe.mono {tree : NodeTree} {height more : Nat} (low : tree.HeightLe height)
    (le : height ≤ more) : tree.HeightLe more := by
  induction low generalizing more with
  | node _ ih =>
    obtain ⟨more, rfl⟩ := Nat.exists_eq_add_one_of_ne_zero (Nat.ne_zero_of_lt le)
    exact .node fun tree member => ih tree member (Nat.le_of_succ_le_succ le)

theorem Under.length_lt {tree node : NodeTree} {above : List NodeKind}
    (under : tree.Under above node) {height : Nat} (low : tree.HeightLe height) :
    above.length < height := by
  induction under generalizing height with
  | root =>
    cases low
    exact Nat.succ_pos _
  | child member _ ih =>
    cases low with
    | node below => exact Nat.succ_lt_succ (ih (below _ member))

end NodeTree

section Within

open Syntax (nestingLimit)

variable {names : String → Prop} {budget : Nat}

theorem TypeExpr.Within.bounded {type : TypeExpr} (within : type.Within names budget)
    {levels : Nat} (left : levels + budget ≤ nestingLimit) (packages : Nat) :
    type.nodeTree.Bounded levels packages := by
  induction within generalizing levels with
  | simple => exact .other (by simp)
  | generic _ _ _ ih =>
    refine .generic (by omega) fun tree member => ?_
    rw [TypeExpr.nodeTrees_eq] at member
    obtain ⟨arg, inside, rfl⟩ := List.mem_map.1 member
    exact ih arg inside (by omega)
  | nullable _ _ ih => exact .other (by simpa using ih left)

theorem Member.Within.bounded {member : Member} (within : member.Within names budget)
    {levels : Nat} (left : levels + budget ≤ nestingLimit) (packages : Nat) :
    member.nodeTree.Bounded levels packages := by
  cases member with
  | field decl =>
    have type := TypeExpr.Within.bounded within left packages
    refine .other (List.forall_mem_cons.2 ⟨type, fun tree member => ?_⟩)
    obtain ⟨-, -, rfl⟩ := List.mem_map.1 member
    exact .other (by simp)
  | method decl =>
    refine .other fun tree member => ?_
    rcases List.mem_append.1 member with member | member
    · obtain ⟨param, inside, rfl⟩ := List.mem_map.1 member
      exact .other (by simpa using (within.1 param inside).bounded left packages)
    · rw [List.mem_singleton.1 member]
      exact within.2.bounded left packages
  | value => exact .other (by simp)

theorem Item.Within.bounded {item : Item} (within : item.Within names budget) {levels : Nat}
    (left : levels + budget = nestingLimit) : item.nodeTree.Bounded levels levels := by
  induction within generalizing levels with
  | @declaration budget decl within =>
    cases decl with
    | entity decl =>
      -- From here on generic types are counted too, and packages no more.
      refine .other fun tree member => ?_
      obtain ⟨own, inside, rfl⟩ := List.mem_map.1 member
      exact (within own inside).bounded (Nat.le_of_eq left) levels
    | _ => exact .other (by simp)
  | package _ ih =>
    refine .package (by omega) fun tree member => ?_
    rw [Item.nodeTrees_eq] at member
    obtain ⟨item, inside, rfl⟩ := List.mem_map.1 member
    exact ih item inside (by omega)
  | emptied => exact .emptied left

theorem TypeExpr.Within.heightLe {type : TypeExpr} (within : type.Within names budget) :
    type.nodeTree.HeightLe (2 * budget + 2) ∧
    ((∀ other span, type ≠ .nullable other span) → type.nodeTree.HeightLe (2 * budget + 1)) := by
  -- A question mark may stand for each of the types one inside the other.
  induction within with
  | simple =>
    have low : (NodeTree.node .other []).HeightLe 1 := .node (by simp)
    exact ⟨low.mono (by omega), fun _ => low.mono (by omega)⟩
  | @generic budget base args span _ _ _ ih =>
    have low : (TypeExpr.generic base args span).nodeTree.HeightLe (2 * budget + 3) := by
      refine .node fun tree member => ?_
      rw [TypeExpr.nodeTrees_eq] at member
      obtain ⟨arg, inside, rfl⟩ := List.mem_map.1 member
      exact (ih arg inside).1
    exact ⟨low.mono (by omega), fun _ => low.mono (by omega)⟩
  | nullable _ plain ih =>
    exact ⟨.node (by simpa using ih.2 plain), fun other => absurd rfl (other _ _)⟩

theorem Member.Within.heightLe {member : Member} (within : member.Within names budget) :
    member.nodeTree.HeightLe (2 * budget + 4) := by
  cases member with
  | field decl =>
    have low := TypeExpr.Within.heightLe within
    refine .node (List.forall_mem_cons.2 ⟨low.1.mono (by omega), fun tree member => ?_⟩)
    obtain ⟨-, -, rfl⟩ := List.mem_map.1 member
    exact .node (by simp)
  | method decl =>
    refine .node fun tree member => ?_
    rcases List.mem_append.1 member with member | member
    · obtain ⟨param, inside, rfl⟩ := List.mem_map.1 member
      exact .node (by simpa using (within.1 param inside).heightLe.1)
    · rw [List.mem_singleton.1 member]
      exact within.2.heightLe.1.mono (by omega)
  | value => exact .node (by simp)

theorem Item.Within.heightLe {item : Item} (within : item.Within names budget) :
    item.nodeTree.HeightLe (2 * budget + 5) := by
  induction within with
  | @declaration budget decl within =>
    cases decl with
    | entity decl =>
      refine .node fun tree member => ?_
      obtain ⟨own, inside, rfl⟩ := List.mem_map.1 member
      exact (within own inside).heightLe
    | _ => exact .node (by simp)
  | package _ ih =>
    refine .node fun tree member => ?_
    rw [Item.nodeTrees_eq] at member
    obtain ⟨item, inside, rfl⟩ := List.mem_map.1 member
    exact (ih item inside).mono (by omega)
  | emptied => exact .node (by simp [Item.nodeTrees])

theorem Program.Within.bounded {program : Program} (within : program.Within names) :
    program.nodeTree.Bounded 0 0 := by
  refine .other fun tree member => ?_
  rcases List.mem_append.1 member with member | member
  · obtain ⟨-, -, rfl⟩ := List.mem_map.1 member
    exact .other (by simp)
  · obtain ⟨diagram, inside, rfl⟩ := List.mem_map.1 member
    refine .other fun tree member => ?_
    rw [Item.nodeTrees_eq] at member
    obtain ⟨item, body, rfl⟩ := List.mem_map.1 member
    exact (within diagram inside item body).bounded (Nat.zero_add _)

theorem Program.Within.heightLe {program : Program} (within : program.Within names) :
    program.nodeTree.HeightLe (2 * nestingLimit + 7) := by
  refine .node fun tree member => ?_
  rcases List.mem_append.1 member with member | member
  · obtain ⟨-, -, rfl⟩ := List.mem_map.1 member
    exact .node (by simp)
  · obtain ⟨diagram, inside, rfl⟩ := List.mem_map.1 member
    refine .node fun tree member => ?_
    rw [Item.nodeTrees_eq] at member
    obtain ⟨item, body, rfl⟩ := List.mem_map.1 member
    exact (within diagram inside item body).heightLe

end Within

namespace Syntax

-- What was read before leaves no trace.

/-- Cursors with the same tokens left. What was reported since two cursors is the same. -/
structure Cursor.SameAhead (start other : List SyntaxError) (c d : Cursor) : Prop where
  rest : c.rest = d.rest
  final : c.final = d.final
  reported : ∃ new, c.errors = new ++ start ∧ d.errors = new ++ other

namespace Cursor.SameAhead

variable {start other : List SyntaxError} {c d : Cursor}

theorem current (same : SameAhead start other c d) : c.current = d.current := by
  rw [Cursor.current, Cursor.current, same.rest, same.final]

theorem advance (same : SameAhead start other c d) : SameAhead start other c.advance d.advance where
  rest := by rw [rest_advance, rest_advance, same.rest]
  final := by rw [final_advance, final_advance, same.final]
  reported := by simpa only [errors_advance] using same.reported

theorem following (same : SameAhead start other c d) : c.following = d.following := by
  rw [following_eq, following_eq, same.advance.current]

theorem report (same : SameAhead start other c d) (cause : SyntaxError.Cause) (token : Token) :
    SameAhead start other (c.report cause token) (d.report cause token) where
  rest := same.rest
  final := same.final
  reported := by
    obtain ⟨new, before, after⟩ := same.reported
    exact ⟨_ :: new, congrArg (_ :: ·) before, congrArg (_ :: ·) after⟩

end Cursor.SameAhead

/-- Runs that differ in what was read and reported before, seen without spans: an empty span would
tell where the token before it ended. -/
def sameAhead (start other : List SyntaxError) : Simulation where
  tokens := Eq
  cursors := Cursor.SameAhead start other
  left := unspan
  right := unspan
  lexeme same := congrArg Token.toLexeme same
  current same := same.current
  following same := same.following
  rest same := congrArg (List.map Token.toLexeme) same.rest
  advance same := same.advance
  report cause same tokens := tokens ▸ same.report cause _
  span _ _ := rfl
  touching same := by rw [same.current, same.following]

/-- A reader is decided by the tokens ahead: what was read or reported before changes neither what
it gives, spans apart, nor what it takes and reports. -/
def Forgetful {α : Type} (view : (Span → Span) → α → α) (r : Reader α) : Prop :=
  ∀ c d : Cursor, c.rest = d.rest → c.final = d.final →
    (∃ fault, r.run c = .error fault ∧ r.run d = .error fault) ∨
    ∃ a b c' d' new, r.run c = .ok (a, c') ∧ r.run d = .ok (b, d') ∧
      view unspan a = view unspan b ∧ c'.rest = d'.rest ∧
      c'.errors = new ++ c.errors ∧ d'.errors = new ++ d.errors

theorem Forgetful.of_agree {α : Type} {view : (Span → Span) → α → α} {r : Reader α}
    (agree : ∀ sim, Agree sim (Like sim view) r r) : Forgetful view r := by
  intro c d rest final
  have ends := agree (sameAhead c.errors d.errors) ⟨rest, final, [], rfl, rfl⟩
  generalize left : r.run c = x at ends
  generalize right : r.run d = y at ends
  cases ends with
  | error fault => exact .inl ⟨fault, rfl, rfl⟩
  | ok same ahead =>
    obtain ⟨new, before, after⟩ := ahead.reported
    exact .inr ⟨_, _, _, _, new, rfl, rfl, same, ahead.rest, before, after⟩

theorem agree_itemAt {sim : Simulation} (budget : Nat) (region : Region) :
    Agree sim (Like sim fun f => Option.map (Item.mapSpans f)) (itemAt budget region)
      (itemAt budget region) := by
  refine agree_item (agree_packageWith fun body some_ => ?_) budget region
  cases budget with
  | zero => cases some_
  | succ budget =>
    obtain rfl := Option.some.inj some_
    exact agree_items budget .packageBody

/-- Members, items and the parts of a program are read one behind the other, each with the levels
that the first one had, and by readers that forget what was before. So are the types in them. -/
structure Steady : Prop where
  forgetsType (budget : Nat) : Forgetful TypeExpr.mapSpans (typeExpr budget)
  forgetsMember (budget : Nat) (kind : EntityKind) :
    Forgetful (fun f => Option.map (Member.mapSpans f)) (member budget kind)
  forgetsItem (budget : Nat) (region : Region) :
    Forgetful (fun f => Option.map (Item.mapSpans f)) (itemAt budget region)
  forgetsPart : Forgetful (fun f => Option.map (TopLevel.mapSpans f)) topLevel
  eachMember {budget : Nat} {kind : EntityKind} {c d : Cursor} {found : List Member} :
    (many (.mark .rightBrace) (.entityBody kind) (member budget kind)).run c = .ok (found, d) →
    ∃ each, found = each.filterMap id ∧ Chain (fun c found d =>
      (manyRound (.mark .rightBrace) (.entityBody kind) (member budget kind)).run c =
        .ok (some found, d)) c each d
  eachItem {budget : Nat} {region : Region} {c d : Cursor} {body : List Item} :
    (items budget region).run c = .ok (body, d) →
    ∃ each, body = each.filterMap id ∧ Chain (fun c found d =>
      (manyRound (.mark .rightBrace) region (itemAt budget region)).run c = .ok (some found, d))
        c each d
  eachPart {c d : Cursor} {tree : Program} : program.run c = .ok (tree, d) →
    ∃ parts, tree.imports = importsOf parts ∧ tree.diagrams = diagramsOf parts ∧
      Chain (fun c part d => topLevel.run c = .ok (some part, d)) c parts d

theorem steady : Steady where
  forgetsType budget := .of_agree fun _ => agree_typeExpr budget
  forgetsMember budget kind := .of_agree fun _ => agree_member budget kind
  forgetsItem budget region := .of_agree fun _ => agree_itemAt budget region
  forgetsPart := .of_agree fun _ => agree_topLevel
  eachMember run := chain_of_many (roundsTakeTokens.members _ _) run
  eachItem run := chain_of_many (takesToken_itemRound _ _) (items_eq _ _ ▸ run)
  eachPart run := by
    obtain ⟨parts, rfl, chain, -⟩ := chain_of_program run
    exact ⟨parts, rfl, rfl, chain⟩

/-- In every tree that the parser builds, a generic type has at most 99 packages and generic types
above it, a package has at most 100 packages above it and is empty if it has as many, and no more
than 206 nodes stand one above the other over a node. What was read before a declaration does not
change the levels that are left for it. -/
theorem nesting_bounded {tokens : List Token} {parsed : Parsed}
    (run : parseTokens tokens = .ok parsed) :
    (∀ above node, parsed.program.nodeTree.Under above node →
      above.length ≤ 206 ∧
      (node.kind = .generic → above.countP (· ≠ .other) ≤ 99) ∧
      (node.kind = .package → above.count .package ≤ 100 ∧
        (above.count .package = 100 → node.children = []))) ∧
    Steady := by
  -- What the types are named does not matter here.
  have within := @within_of_parseTokens _ _ (fun _ => True) (fun _ _ _ => trivial) trivial run
  refine ⟨fun above node under => ⟨?_, ?_⟩, steady⟩
  · exact Nat.le_of_lt_succ (under.length_lt within.heightLe)
  · have bounded := under.bounded within.bounded
    rw [Nat.zero_add, Nat.zero_add] at bounded
    have limit : nestingLimit = 100 := rfl
    cases bounded with
    | generic left => exact ⟨fun _ => by omega, by simp [NodeTree.kind]⟩
    | package left => exact ⟨by simp [NodeTree.kind], fun _ => ⟨by omega, by omega⟩⟩
    | emptied left => exact ⟨by simp [NodeTree.kind], fun _ => ⟨by omega, fun _ => rfl⟩⟩
    | other => exact ⟨by simp [NodeTree.kind], by simp [NodeTree.kind]⟩

/-- Two types one in the other inside a package, none of which is closed. -/
theorem nesting_bounded_malformed : ∃ parsed,
    parseTokens
      (Lexer.lex "diagram d : class \x7b package p \x7b class A \x7b x : B<C<D>?").tokens =
      .ok parsed ∧ parsed.errors ≠ [] ∧
    ∀ above node, parsed.program.nodeTree.Under above node → node.kind = .generic →
      above.countP (· ≠ .other) ≤ 99 := by
  have reported : (parseTokens
      (Lexer.lex
        "diagram d : class \x7b package p \x7b class A \x7b x : B<C<D>?").tokens).toOption.map
      (·.errors.isEmpty) = some false := by decide +kernel
  obtain ⟨parsed, run, malformed⟩ := ok_of_toOption_map reported
  refine ⟨parsed, run, ?_, fun above node under => ((nesting_bounded run).1 above node under).2.1⟩
  exact mt List.isEmpty_iff.2 (ne_true_of_eq_false malformed)

end Syntax

end ArchDiagram
