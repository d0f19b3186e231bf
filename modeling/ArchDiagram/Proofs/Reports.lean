import ArchDiagram.Proofs.Gaps
import ArchDiagram.Proofs.Progress

/-!
Where errors are reported. An error names the place of a token that is left when it is reported, and
tokens are taken in the order in which they stand, so reports come in the order of their places.
-/

namespace ArchDiagram.Syntax

namespace Cursor

def remaining (c : Cursor) : List Token := c.rest ++ [c.final]

theorem remaining_of_nil {c : Cursor} (ends : c.rest = []) : c.remaining = [c.final] := by
  rw [remaining, ends, List.nil_append]

theorem remaining_of_more {c : Cursor} (more : c.rest ≠ []) :
    c.remaining = c.current :: c.advance.remaining := by
  rw [remaining, remaining, rest_eq_cons more, final_advance, List.cons_append]

theorem advance_of_nil {c : Cursor} (ends : c.rest = []) : c.advance = c := by
  unfold advance
  rw [ends]

theorem current_mem_remaining (c : Cursor) : c.current ∈ c.remaining := by
  by_cases ends : c.rest = []
  · simp [remaining_of_nil ends, current, ends]
  · simp [remaining_of_more ends]

/-- What was reported stands at the token at the cursor or before it, in the order of the reports. -/
structure InOrder (c : Cursor) : Prop where
  tokens : c.remaining.Pairwise fun token next => token.position.offset ≤ next.position.offset
  errors : c.errors.Pairwise fun error earlier => earlier.position.offset ≤ error.position.offset
  reported : ∀ error ∈ c.errors, error.position.offset ≤ c.current.position.offset

namespace InOrder

theorem current_le {c : Cursor} (ordered : c.InOrder) :
    c.current.position.offset ≤ c.advance.current.position.offset := by
  by_cases ends : c.rest = []
  · rw [advance_of_nil ends]
  · have tokens := ordered.tokens
    rw [remaining_of_more ends] at tokens
    exact (List.pairwise_cons.1 tokens).1 _ (current_mem_remaining c.advance)

theorem advance {c : Cursor} (ordered : c.InOrder) : c.advance.InOrder := by
  by_cases ends : c.rest = []
  · rwa [advance_of_nil ends]
  · have tokens := ordered.tokens
    rw [remaining_of_more ends] at tokens
    constructor
    · exact (List.pairwise_cons.1 tokens).2
    · simpa using ordered.errors
    · intro error member
      rw [errors_advance] at member
      exact (ordered.reported error member).trans ordered.current_le

theorem report {c : Cursor} (ordered : c.InOrder) (cause : SyntaxError.Cause) :
    (c.report cause c.current).InOrder where
  tokens := ordered.tokens
  errors := .cons ordered.reported ordered.errors
  reported := List.forall_mem_cons.2 ⟨Nat.le_refl _, ordered.reported⟩

theorem reportTaken {c : Cursor} (ordered : c.InOrder) (cause : SyntaxError.Cause) :
    (c.advance.report cause c.current).InOrder where
  tokens := ordered.advance.tokens
  errors := .cons (by simpa using ordered.reported) ordered.advance.errors
  reported := List.forall_mem_cons.2 ⟨ordered.current_le, ordered.advance.reported⟩

end InOrder

theorem Reaches.inOrder {c d : Cursor} (reached : c.Reaches d) (ordered : c.InOrder) :
    d.InOrder := by
  induction reached with
  | refl => exact ordered
  | advance _ ih => exact ih.advance
  | report cause _ ih => exact ih.report cause
  | reportTaken cause _ ih => exact ih.reportTaken cause

theorem Reaches.mem_errors {c d : Cursor} (reached : c.Reaches d) {error : SyntaxError}
    (member : error ∈ d.errors) :
    error ∈ c.errors ∨ ∃ token ∈ c.remaining, error.position = token.position := by
  -- A token is reported while it is left, or right behind the step that takes it.
  have left {e : Cursor} (before : c.Reaches e) : e.current ∈ c.remaining := by
    have suffix_ : e.remaining <:+ c.remaining := by
      rw [remaining, remaining, before.final_eq]
      exact List.suffix_append_self_iff.2 before.rest_suffix
    exact suffix_.subset (current_mem_remaining e)
  induction reached with
  | refl => exact .inl member
  | advance _ ih => exact ih (by simpa using member)
  | report cause before ih =>
    rcases List.mem_cons.1 member with rfl | earlier
    · exact .inr ⟨_, left before, rfl⟩
    · exact ih earlier
  | reportTaken cause before ih =>
    rcases List.mem_cons.1 member with rfl | earlier
    · exact .inr ⟨_, left before, rfl⟩
    · exact ih (by simpa using earlier)

end Cursor

/-- A parse that ends is a run over all tokens, whose reports come behind the lexical errors. -/
theorem run_of_parse {source : String} {parsed : Parsed} (ended : parse source = .ok parsed) :
    ∃ last, program.run (.ofTokens (Lexer.lex source).tokens) = .ok (parsed.program, last) ∧
      parsed.errors = (Lexer.lex source).errors ++ last.errors.reverse ∧
      (Cursor.ofTokens (Lexer.lex source).tokens).Reaches last := by
  have out := outcome_program true (.ofTokens (Lexer.lex source).tokens)
  cases run : program.run (.ofTokens (Lexer.lex source).tokens) with
  | error fault =>
    rw [parse, parseTokens, run] at ended
    cases ended
  | ok found =>
    obtain ⟨tree, last⟩ := found
    rw [parse, parseTokens_of_run run] at ended
    rw [← Except.ok.inj ended]
    exact ⟨last, rfl, rfl, out.reaches run⟩

theorem remaining_ofTokens (source : String) :
    (Cursor.ofTokens (Lexer.lex source).tokens).remaining = (Lexer.lex source).tokens := by
  rw [Cursor.remaining, Lexer.rest_ofTokens, Lexer.final_ofTokens, ← Lexer.tokens_eq]

theorem offset_le_stop {source : String} {token : Token}
    (member : token ∈ (Lexer.lex source).tokens) : token.position.offset ≤ token.stop := by
  rw [Lexer.tokens_eq] at member
  rcases List.mem_append.1 member with inside | final
  · exact Nat.le_of_lt (Lexer.forward_of_mem_tokens inside)
  · rw [List.mem_singleton.1 final]
    exact Nat.le_refl _

theorem inOrder_ofTokens (source : String) :
    (Cursor.ofTokens (Lexer.lex source).tokens).InOrder where
  tokens := by
    rw [remaining_ofTokens]
    have apart := (Lexer.lex_accounted source).apart
    exact apart.imp_of_mem fun member _ behind => (offset_le_stop member).trans behind
  errors := .nil
  reported := by simp [Cursor.ofTokens]

/-- Lexical errors come first, each at a place of its own behind the one before it. The parser's
errors come behind them, and none stands before one that was reported earlier. -/
theorem errors_in_order {source : String} {parsed : Parsed} (ended : parse source = .ok parsed) :
    ∃ reported, parseTokens (Lexer.lex source).tokens = .ok ⟨parsed.program, reported⟩ ∧
      parsed.errors = (Lexer.lex source).errors ++ reported ∧
      ((Lexer.lex source).errors.Pairwise fun error next =>
        error.position.offset < next.position.offset) ∧
      reported.Pairwise fun error next => error.position.offset ≤ next.position.offset := by
  obtain ⟨last, run, errors, reached⟩ := run_of_parse ended
  have ordered := reached.inOrder (inOrder_ofTokens source)
  exact ⟨_, parseTokens_of_run run, errors, Lexer.pairwise_errors source,
    List.pairwise_reverse.2 ordered.errors⟩

/-- Two strange characters, and four things that are missing at one token. -/
theorem errors_in_order_crowded : ∃ parsed reported,
    parse "diagram d : class \x7b class \x7b x ( : $ \x7d \x7d # $ \x7d" = .ok parsed ∧
    parsed.errors.map (·.position.offset) = [34, 42, 26, 32, 36, 36, 36, 36, 40, 44] ∧
    parsed.errors =
      (Lexer.lex "diagram d : class \x7b class \x7b x ( : $ \x7d \x7d # $ \x7d").errors ++ reported ∧
    reported.Pairwise fun error next => error.position.offset ≤ next.position.offset := by
  have known : ((parse "diagram d : class \x7b class \x7b x ( : $ \x7d \x7d # $ \x7d").toOption.map
      fun parsed => parsed.errors.map (·.position.offset)) =
        some [34, 42, 26, 32, 36, 36, 36, 36, 40, 44] := by decide +kernel
  obtain ⟨parsed, ended, places⟩ := ok_of_toOption_map known
  obtain ⟨reported, -, whole, -, ordered⟩ := errors_in_order ended
  exact ⟨parsed, reported, ended, places, whole, ordered⟩

end ArchDiagram.Syntax
