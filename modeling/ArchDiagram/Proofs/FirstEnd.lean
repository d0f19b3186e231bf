import ArchDiagram.Proofs.Progress
import ArchDiagram.Proofs.Simulation.Readers

/-!
Nothing behind the first end of the tokens counts. Looking ahead is not held up by that end: it
shows whatever stands behind it in the list. Runs from cursors that differ only there go on side by
side all the same, so they give the same tree with the same spans and errors, or stop at the same
fault.
-/

namespace ArchDiagram.Syntax

/-- Cursors that differ only in the tokens that are never read. -/
structure Cursor.SameUpToEnd (c d : Cursor) : Prop where
  rest : c.rest = d.rest
  final : c.final = d.final
  lastStop : c.lastStop = d.lastStop
  errors : c.errors = d.errors

namespace Cursor.SameUpToEnd

variable {c d : Cursor}

theorem current (same : c.SameUpToEnd d) : c.current = d.current := by
  rw [Cursor.current, Cursor.current, same.rest, same.final]

theorem following (same : c.SameUpToEnd d) : c.following = d.following := by
  rw [Cursor.following, Cursor.following, same.rest, same.final]

theorem advance (same : c.SameUpToEnd d) : c.advance.SameUpToEnd d.advance := by
  unfold Cursor.advance
  rw [same.rest]
  split
  · exact same
  · exact ⟨rfl, same.final, rfl, same.errors⟩

theorem report (same : c.SameUpToEnd d) (cause : SyntaxError.Cause) (token : Token) :
    (c.report cause token).SameUpToEnd (d.report cause token) :=
  ⟨same.rest, same.final, same.lastStop, congrArg (_ :: ·) same.errors⟩

end Cursor.SameUpToEnd

/-- Runs over the same tokens up to the first end. What looking ahead shows at the end is not
related. -/
def sameUpToEnd : Simulation where
  tokens := Eq
  cursors := Cursor.SameUpToEnd
  left := id
  right := id
  lexeme same := congrArg Token.toLexeme same
  current same := same.current
  following same := same.following
  rest same := congrArg (List.map Token.toLexeme) same.rest
  advance same := same.advance
  report cause same token := token ▸ same.report cause _
  span same token := by rw [token, same.lastStop]
  touching same := by rw [same.current, same.following]

theorem agree_program_sameUpToEnd : Agree sameUpToEnd Eq program program := by
  have token : Agree sameUpToEnd Eq current current := agree_current
  have parts : Agree sameUpToEnd Eq (repeatWhile topLevel) (repeatWhile topLevel) := by
    refine agree_topLevel.repeatWhile.mono fun parts parts' same => ?_
    have unchanged (parts : List TopLevel) : parts.map (TopLevel.mapSpans id) = parts :=
      (List.map_congr_left fun part _ => part.mapSpans_id).trans (List.map_id parts)
    exact (unchanged parts).symm.trans (same.trans (unchanged parts'))
  refine .bind_eq token fun first => .bind_eq parts fun parts => ?_
  exact .bind_eq token fun last => .pure rfl

theorem parseTokens_of_sameUpToEnd {tokens other : List Token}
    (same : (Cursor.ofTokens tokens).SameUpToEnd (.ofTokens other)) :
    parseTokens tokens = parseTokens other := by
  have ends := agree_program_sameUpToEnd same
  unfold parseTokens
  generalize program.run (.ofTokens tokens) = x at ends
  generalize program.run (.ofTokens other) = y at ends
  cases ends with
  | error fault => rfl
  | ok trees cursors =>
    have errors := cursors.errors
    simp only [Except.map, trees, errors]

/-- Whatever stands behind the first end of a list of tokens, the list is read as if nothing stood
there: with the same tree, the same spans and the same errors, or to the same fault. A list without
an end is read as if it had one, behind its last token and at the line and column of that token. -/
theorem behind_end_irrelevant (tokens : List Token)
    (open_ : ∀ token ∈ tokens, token.kind ≠ .endOfInput) :
    (∀ final rest, final.kind = .endOfInput →
      parseTokens (tokens ++ final :: rest) = parseTokens (tokens ++ [final])) ∧
    let place : Position := (tokens.getLast?.map fun last =>
      ⟨last.stop, last.position.line, last.position.column⟩).getD ⟨0, 1, 1⟩
    parseTokens tokens = parseTokens (tokens ++ [⟨⟨.endOfInput, ""⟩, place, place.offset⟩]) := by
  constructor
  · intro final rest ends
    apply parseTokens_of_sameUpToEnd
    constructor
    · exact (takeWhile_append open_ ends rest).trans (takeWhile_append open_ ends []).symm
    · exact (endOf_append open_ ends rest).trans (endOf_append open_ ends []).symm
    · rfl
    · rfl
  · intro place
    -- The token that closes an open list stands where the last one ends.
    have closing : closingToken tokens = ⟨⟨.endOfInput, ""⟩, place, place.offset⟩ := by
      simp only [closingToken, place]
      cases tokens.getLast? <;> rfl
    rw [← closing]
    apply parseTokens_of_sameUpToEnd
    have ends := kind_closingToken tokens
    constructor
    · exact (List.takeWhile_eq_self_iff.2 (by simpa using open_)).trans
        (takeWhile_append open_ ends []).symm
    · exact (endOf_of_open open_).trans (endOf_append open_ ends []).symm
    · rfl
    · rfl

/-- An enumeration that breaks off behind a name, with a type for it and a second end behind the
end. Looking ahead from the end shows the colon. -/
theorem behind_end_irrelevant_value :
    let token (kind : TokenKind) (text : String) (offset : Nat) : Token :=
      ⟨⟨kind, text⟩, ⟨offset, 1, offset + 1⟩, offset + text.length⟩
    let tokens := [token (.keyword .diagram) "diagram" 0, token .identifier "d" 8,
      token (.mark .colon) ":" 9, token (.keyword (.entity .classType)) "class" 10,
      token (.mark .leftBrace) "\x7b" 15, token (.keyword (.entity .enumeration)) "enum" 16,
      token .identifier "E" 21, token (.mark .leftBrace) "\x7b" 22, token .identifier "a" 23]
    let final := token .endOfInput "" 24
    let rest := [token (.mark .colon) ":" 24, token (.keyword (.builtin .int)) "int" 25,
      token .endOfInput "" 28]
    (Cursor.ofTokens (final :: rest)).ahead.kind = .mark .colon ∧
    parseTokens (tokens ++ final :: rest) = parseTokens (tokens ++ [final]) ∧
    parseTokens tokens = parseTokens (tokens ++ [⟨⟨.endOfInput, ""⟩, ⟨24, 1, 24⟩, 24⟩]) := by
  intro token tokens final rest
  have open_ : ∀ token ∈ tokens, token.kind ≠ .endOfInput := by decide
  obtain ⟨behind, closed⟩ := behind_end_irrelevant tokens open_
  exact ⟨by decide, behind final rest rfl, closed⟩

end ArchDiagram.Syntax
