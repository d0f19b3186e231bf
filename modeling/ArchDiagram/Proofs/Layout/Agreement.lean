import ArchDiagram.Proofs.Simulation.Readers

/-!
Two runs over tokens that say the same in different places. Cursors are alike if no reader can tell
them apart other than by places, so the runs are a simulation to those who see no spans.
-/

namespace ArchDiagram

/-- Two tokens that differ in their places at most. -/
inductive Token.Same : Token → Token → Prop
  | mk (lexeme : Lexeme) (here there : Position) (stop other : Nat) :
      Token.Same ⟨lexeme, here, stop⟩ ⟨lexeme, there, other⟩

theorem Token.same_of_toLexeme_eq {token other : Token}
    (lexemes : token.toLexeme = other.toLexeme) : token.Same other := by
  obtain ⟨lexeme, here, stop⟩ := token
  obtain ⟨_, there, otherStop⟩ := other
  obtain rfl : lexeme = _ := lexemes
  exact .mk lexeme here there stop otherStop

theorem Token.Same.toLexeme_eq {token other : Token} (same : token.Same other) :
    token.toLexeme = other.toLexeme := by
  cases same
  rfl

namespace Syntax

/-- Two closing marks behind the given number of tokens, the second where the first one ends. -/
def TouchAt (tokens : List Token) (i : Nat) : Prop :=
  ∃ first ∈ tokens[i]?, ∃ second ∈ tokens[i + 1]?,
    first.kind = .mark .greater ∧ second.kind = .mark .greater ∧
    second.position.offset = first.stop

instance (tokens : List Token) (i : Nat) : Decidable (TouchAt tokens i) :=
  inferInstanceAs (Decidable (∃ first ∈ tokens[i]?, ∃ second ∈ tokens[i + 1]?,
    first.kind = .mark .greater ∧ second.kind = .mark .greater ∧
    second.position.offset = first.stop))

/-- The same lexemes, with closing marks touching in the same places. -/
structure SameText (xs ys : List Token) : Prop where
  lexemes : xs.map (·.toLexeme) = ys.map (·.toLexeme)
  touching : ∀ i, TouchAt xs i ↔ TouchAt ys i

namespace SameText

variable {xs ys : List Token}

theorem not_touchAt {tokens : List Token} {i : Nat} (behind : tokens.length ≤ i + 1) :
    ¬ TouchAt tokens i := by
  rintro ⟨-, -, second, there, -⟩
  simp [List.getElem?_eq_none behind] at there

instance (xs ys : List Token) : Decidable (SameText xs ys) :=
  decidable_of_iff (xs.map (·.toLexeme) = ys.map (·.toLexeme) ∧
      ∀ i < max xs.length ys.length, (TouchAt xs i ↔ TouchAt ys i)) <| by
    constructor
    · rintro ⟨lexemes, touching⟩
      refine ⟨lexemes, fun i => ?_⟩
      by_cases inside : i < max xs.length ys.length
      · exact touching i inside
      · exact iff_of_false (not_touchAt (by omega)) (not_touchAt (by omega))
    · rintro ⟨lexemes, touching⟩
      exact ⟨lexemes, fun i _ => touching i⟩

theorem touchAt_tail (tokens : List Token) (i : Nat) :
    TouchAt tokens.tail i ↔ TouchAt tokens (i + 1) := by
  simp only [TouchAt, List.getElem?_tail]

theorem tail (same : SameText xs ys) : SameText xs.tail ys.tail where
  lexemes := by rw [List.map_tail, List.map_tail, same.lexemes]
  touching i := by rw [touchAt_tail, touchAt_tail, same.touching]

theorem headD {x y : Token} (same : SameText xs ys) (final : x.Same y) :
    (xs.headD x).Same (ys.headD y) := by
  obtain ⟨lexemes, -⟩ := same
  cases xs with
  | nil =>
    obtain rfl := List.map_eq_nil_iff.1 lexemes.symm
    exact final
  | cons token rest =>
    obtain ⟨other, more, rfl, first, -⟩ := List.map_eq_cons_iff.1 lexemes.symm
    exact Token.same_of_toLexeme_eq first.symm

end SameText

/-- Cursors over the same text, at which the same was reported. -/
structure Cursor.Alike (c d : Cursor) : Prop where
  rest : SameText c.rest d.rest
  final : c.final.Same d.final
  causes : c.errors.map (·.cause) = d.errors.map (·.cause)

namespace Cursor.Alike

variable {c d : Cursor}

theorem current (alike : c.Alike d) : c.current.Same d.current := alike.rest.headD alike.final

theorem following (alike : c.Alike d) : c.following.Same d.following :=
  alike.rest.tail.headD alike.final

theorem advance (alike : c.Alike d) : c.advance.Alike d.advance where
  rest := by
    rw [rest_advance, rest_advance]
    exact alike.rest.tail
  final := by simpa using alike.final
  causes := by simpa using alike.causes

theorem report (alike : c.Alike d) (cause : SyntaxError.Cause) (token other : Token) :
    (c.report cause token).Alike (d.report cause other) where
  rest := alike.rest
  final := alike.final
  causes := congrArg (cause :: ·) alike.causes

theorem touching (alike : c.Alike d) :
    (c.current.kind = .mark .greater ∧ c.following.kind = .mark .greater ∧
      c.following.position.offset = c.current.stop) ↔
    (d.current.kind = .mark .greater ∧ d.following.kind = .mark .greater ∧
      d.following.position.offset = d.current.stop) := by
  have at_ (e : Cursor) : TouchAt e.rest 0 ↔ (e.current.kind = .mark .greater ∧
      e.following.kind = .mark .greater ∧ e.following.position.offset = e.current.stop) := by
    have ends := e.kind_final
    unfold TouchAt Cursor.current Cursor.following
    -- The token behind all others is no mark, so both marks are among the tokens left.
    rcases e.rest with _ | ⟨first, _ | ⟨second, rest⟩⟩ <;> simp [ends]
  rw [← at_, ← at_]
  exact alike.rest.touching 0

end Cursor.Alike

def sameText : Simulation where
  tokens := Token.Same
  cursors := Cursor.Alike
  left := unspan
  right := unspan
  lexeme := Token.Same.toLexeme_eq
  current := Cursor.Alike.current
  following := Cursor.Alike.following
  rest alike := alike.rest.lexemes
  advance := Cursor.Alike.advance
  report cause alike _ := alike.report cause _ _
  span _ _ := rfl
  touching := Cursor.Alike.touching

theorem agree_program {c d : Cursor} (alike : c.Alike d) :
    Results Cursor.Alike (fun tree tree' => tree.bare = tree'.bare) (program.run c)
      (program.run d) := by
  have agree : Agree sameText (fun tree tree' => tree.bare = tree'.bare) program program := by
    apply Agree.bind_same agree_current
    intro first _ _ _ _ _
    apply Agree.bind agree_topLevel.repeatWhile
    intro parts parts' same
    refine .bind_same agree_current fun last _ _ _ _ _ => .pure ?_
    have imports := congrArg importsOf same
    have diagrams := congrArg diagramsOf same
    rw [importsOf_mapSpans, importsOf_mapSpans] at imports
    rw [diagramsOf_mapSpans, diagramsOf_mapSpans] at diagrams
    exact (congr (congrArg₂ Program.mk imports diagrams) rfl :)
  exact agree alike

end Syntax

end ArchDiagram
