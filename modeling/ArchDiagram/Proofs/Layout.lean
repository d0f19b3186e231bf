import ArchDiagram.Proofs.Layout.Agreement
import ArchDiagram.Proofs.Layout.Meaning
import ArchDiagram.Proofs.Lexing

/-!
Blanks, line breaks and comments do not change what a source means. If two sources have the same
lexemes, and closing marks touch in one exactly where they do in the other, then they are read
alike, and everything but the places that are reported is the same.
-/

namespace ArchDiagram.Syntax

theorem touchAt_concat {tokens : List Token} {final : Token} (ends : final.kind = .endOfInput)
    (i : Nat) : TouchAt (tokens ++ [final]) i ↔ TouchAt tokens i := by
  by_cases inside : i + 1 < tokens.length
  · rw [TouchAt, List.getElem?_append_left inside, List.getElem?_append_left (by omega)]
    rfl
  · refine iff_of_false ?_ (SameText.not_touchAt (by omega))
    rintro ⟨-, -, second, there, -, closing, -⟩
    have last : second ∈ [final] := by
      rw [List.getElem?_append_right (by omega)] at there
      exact List.mem_of_getElem? there
    rw [List.mem_singleton.1 last, ends] at closing
    cases closing

theorem alike_ofTokens {source other : String}
    (same : SameText (Lexer.lex source).tokens (Lexer.lex other).tokens) :
    (Cursor.ofTokens (Lexer.lex source).tokens).Alike (.ofTokens (Lexer.lex other).tokens) where
  rest := by
    rw [Lexer.rest_ofTokens, Lexer.rest_ofTokens]
    refine ⟨by rw [List.map_dropLast, List.map_dropLast, same.lexemes], fun i => ?_⟩
    have touching := same.touching i
    rw [Lexer.tokens_eq source, Lexer.tokens_eq other] at touching
    rwa [touchAt_concat rfl, touchAt_concat rfl] at touching
  final := by
    rw [Lexer.final_ofTokens, Lexer.final_ofTokens]
    exact .mk ..
  causes := rfl

/-- Two sources with the same text are both without a tree, for the same reason, or they have trees
that differ in their spans only. The parser reports the same causes in the same order, the object
models are equal, and the analysis finds the same violations in the same order. -/
theorem layout_irrelevant {source other : String}
    (same : SameText (Lexer.lex source).tokens (Lexer.lex other).tokens) :
    (∃ fault, parse source = .error fault ∧ parse other = .error fault) ∨
    ∃ tree tree' errors errors',
      parseTokens (Lexer.lex source).tokens = .ok ⟨tree, errors⟩ ∧
      parseTokens (Lexer.lex other).tokens = .ok ⟨tree', errors'⟩ ∧
      parse source = .ok ⟨tree, (Lexer.lex source).errors ++ errors⟩ ∧
      parse other = .ok ⟨tree', (Lexer.lex other).errors ++ errors'⟩ ∧
      errors.map (·.cause) = errors'.map (·.cause) ∧
      tree.bare = tree'.bare ∧
      Analysis.lower tree = Analysis.lower tree' ∧
      (Analysis.findings tree).map (·.violation) =
        (Analysis.findings tree').map (·.violation) := by
  have ends := agree_program (alike_ofTokens same)
  generalize left : program.run (.ofTokens (Lexer.lex source).tokens) = x at ends
  generalize right : program.run (.ofTokens (Lexer.lex other).tokens) = y at ends
  cases ends with
  | error fault =>
    left
    refine ⟨fault, ?_, ?_⟩
    · rw [parse, parseTokens, left]
      rfl
    · rw [parse, parseTokens, right]
      rfl
  | @ok tree tree' last last' bare alike =>
    right
    have parsed : parseTokens (Lexer.lex source).tokens = .ok ⟨tree, last.errors.reverse⟩ := by
      rw [parseTokens, left]
      rfl
    have parsed' : parseTokens (Lexer.lex other).tokens = .ok ⟨tree', last'.errors.reverse⟩ := by
      rw [parseTokens, right]
      rfl
    have causes : last.errors.reverse.map (·.cause) = last'.errors.reverse.map (·.cause) := by
      rw [List.map_reverse, List.map_reverse, alike.causes]
    obtain ⟨models, found⟩ := meaning_of_bare_eq bare
    refine ⟨tree, tree', _, _, parsed, parsed', ?_, ?_, causes, bare, models, found⟩
    · rw [parse, parsed]
      rfl
    · rw [parse, parsed']
      rfl

/-- A malformed source in two layouts. -/
theorem layout_irrelevant_malformed : ∃ tree tree' errors errors',
    parse "diagram d : class { class A<<x>> { a : } A }" = .ok ⟨tree, errors⟩ ∧
    parse "diagram d:class/* c */\n{class A<< x >>{ a: }A}" = .ok ⟨tree', errors'⟩ ∧
    errors ≠ [] ∧ errors.map (·.cause) = errors'.map (·.cause) ∧ tree.bare = tree'.bare := by
  have reported : (parse "diagram d : class { class A<<x>> { a : } A }").toOption.map
      (·.errors.isEmpty) = some false := by decide +kernel
  have clean : (Lexer.lex "diagram d : class { class A<<x>> { a : } A }").errors = [] ∧
      (Lexer.lex "diagram d:class/* c */\n{class A<< x >>{ a: }A}").errors = [] := by
    decide +kernel
  have same : SameText (Lexer.lex "diagram d : class { class A<<x>> { a : } A }").tokens
      (Lexer.lex "diagram d:class/* c */\n{class A<< x >>{ a: }A}").tokens := by
    decide +kernel
  rcases layout_irrelevant same with ⟨fault, stopped, -⟩ |
    ⟨tree, tree', errors, errors', -, -, parsed, parsed', causes, bare, -⟩
  · simp [stopped, Except.toOption] at reported
  · rw [clean.1, List.nil_append] at parsed
    rw [clean.2, List.nil_append] at parsed'
    refine ⟨tree, tree', errors, errors', parsed, parsed', ?_, causes, bare⟩
    rintro rfl
    simp [parsed, Except.toOption] at reported

end ArchDiagram.Syntax
