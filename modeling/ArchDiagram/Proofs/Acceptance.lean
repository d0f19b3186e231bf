import ArchDiagram.Proofs.Progress
import ArchDiagram.Proofs.Grammar.Semicolons

/-!
The parser accepts what the grammar derives and nothing else, and the tree that it builds is the
one of the derivation.
-/

namespace ArchDiagram.Syntax

open Grammar

theorem head?_tokens (source : String) : (Lexer.lex source).tokens.head? =
    some (Cursor.ofTokens (Lexer.lex source).tokens).current := by
  rw [Cursor.current, Lexer.rest_ofTokens, Lexer.final_ofTokens]
  conv_lhs => rw [Lexer.tokens_eq]
  cases (Lexer.lex source).tokens.dropLast <;> rfl

theorem quiet_of_parse {source : String} {tree : Program}
    (clean : parse source = .ok ⟨tree, []⟩) : (Lexer.lex source).errors = [] ∧
      parseTokens (Lexer.lex source).tokens = .ok ⟨tree, []⟩ := by
  cases run : parseTokens (Lexer.lex source).tokens with
  | error fault =>
    rw [parse, run] at clean
    cases clean
  | ok found =>
    obtain ⟨other, errors⟩ := found
    rw [parse, run] at clean
    obtain ⟨rfl, silent⟩ := Parsed.mk.inj (Except.ok.inj clean)
    obtain ⟨lexed, parsed⟩ := List.append_eq_nil_iff.1 silent
    exact ⟨lexed, by rw [show errors = [] from parsed]⟩

section Source

variable {source : String}

/-- What was parsed without a report is derived, and the program is made of the parts derived. -/
theorem derivation_of_quiet (greedy : Bool) {tree : Program}
    (run : parseTokens (Lexer.lex source).tokens = .ok ⟨tree, []⟩) :
    ∃ parts, Parts greedy nestingLimit (Lexer.lex source).tokens.dropLast parts ∧
      tree = ⟨importsOf parts, diagramsOf parts,
        ⟨(Cursor.ofTokens (Lexer.lex source).tokens).current.position, source.toList.length⟩⟩ := by
  have out := outcome_program greedy (Cursor.ofTokens (Lexer.lex source).tokens)
  have orderly := Lexer.orderly_tokens source
  rw [← Lexer.rest_ofTokens] at orderly
  cases read : program.run (Cursor.ofTokens (Lexer.lex source).tokens) with
  | error fault =>
    rw [parseTokens, read] at run
    cases run
  | ok found =>
    obtain ⟨found, last⟩ := found
    rw [parseTokens, read] at run
    obtain ⟨rfl, quiet⟩ := Parsed.mk.inj (Except.ok.inj run)
    obtain ⟨ends, parts, reads, rfl⟩ := out.clean read (List.reverse_eq_nil_iff.1 quiet)
    obtain ⟨tokens, taken, derived⟩ := reads orderly
    -- Nothing is left, so the tokens that were taken are all there are.
    have whole := taken.rest_eq
    rw [ends, List.append_nil, Lexer.rest_ofTokens] at whole
    have stop : last.current.stop = source.toList.length := by
      rw [Cursor.current, ends, List.headD_nil, taken.final_eq, Lexer.final_ofTokens]
      change (Position.start.after source.toList).offset = _
      rw [Position.offset_after]
      exact Nat.zero_add _
    rw [stop]
    exact ⟨parts, whole ▸ derived, rfl⟩

/-- What is derived is parsed without a report, and gives the tree of the derivation. -/
theorem quiet_of_derivation {parts : List TopLevel}
    (derived : Parts false nestingLimit (Lexer.lex source).tokens.dropLast parts) :
    ∃ tree, parseTokens (Lexer.lex source).tokens = .ok ⟨tree, []⟩ ∧
      tree.bare = (Program.mk (importsOf parts) (diagramsOf parts) tree.span).bare := by
  -- The parser takes a semicolon into the member before it, and so must the derivation.
  obtain ⟨attached, derived, same⟩ := derived.attach
  have orderly := Lexer.orderly_tokens source
  rw [← Lexer.rest_ofTokens] at derived orderly
  obtain ⟨last, taken, ends⟩ := Cursor.takes_rest (Cursor.ofTokens (Lexer.lex source).tokens)
  have run := run_program derived taken orderly ends
  have quiet : last.errors = [] := taken.errors_eq
  have parsed := parseTokens_of_run run
  rw [quiet] at parsed
  refine ⟨_, parsed, ?_⟩
  have imports := congrArg importsOf same
  have diagrams := congrArg diagramsOf same
  rw [importsOf_mapSpans, importsOf_mapSpans] at imports
  rw [diagramsOf_mapSpans, diagramsOf_mapSpans] at diagrams
  simp [Program.bare, Program.mapSpans, imports, diagrams]

end Source

/-- The parser reports nothing on a source exactly when the grammar derives its tokens, and then the
tree that it gives is the one of every derivation, spans apart. -/
theorem accepts_iff_derivable (source : String) :
    (ShortRuns source.toList → ∃ parsed, parse source = .ok parsed) ∧
    ∀ parsed, parse source = .ok parsed → ∃ errors,
      parseTokens (Lexer.lex source).tokens = .ok ⟨parsed.program, errors⟩ ∧
      parsed.errors = (Lexer.lex source).errors ++ errors ∧
      (errors = [] ↔ ∃ parts, Parts false 100 (Lexer.lex source).tokens.dropLast parts) ∧
      ∀ parts, Parts false 100 (Lexer.lex source).tokens.dropLast parts →
        ∃ imports diagrams, Sorted parts imports diagrams ∧ parsed.program.bare =
          (Program.mk imports diagrams parsed.program.span).bare := by
  refine ⟨parse_ok, fun parsed returned => ?_⟩
  cases run : parseTokens (Lexer.lex source).tokens with
  | error fault =>
    rw [parse, run] at returned
    cases returned
  | ok found =>
    obtain ⟨tree, errors⟩ := found
    rw [parse, run] at returned
    obtain rfl := Except.ok.inj returned
    -- The parser is a function, so whatever is derived is what it gave.
    have agree {parts : List TopLevel}
        (derived : Parts false nestingLimit (Lexer.lex source).tokens.dropLast parts) :
        errors = [] ∧ tree.bare = (Program.mk (importsOf parts) (diagramsOf parts) tree.span).bare := by
      obtain ⟨other, quiet, same⟩ := quiet_of_derivation derived
      rw [run] at quiet
      obtain ⟨rfl, rfl⟩ := Parsed.mk.inj (Except.ok.inj quiet)
      exact ⟨rfl, same⟩
    refine ⟨errors, rfl, rfl, ⟨?_, ?_⟩, fun parts derived => ?_⟩
    · rintro rfl
      obtain ⟨parts, derived, -⟩ := derivation_of_quiet false run
      exact ⟨parts, derived⟩
    · rintro ⟨parts, derived⟩
      exact (agree derived).1
    · exact ⟨_, _, sorted_of_parts derived, (agree derived).2⟩

/-- The tokens of a small source are derived, since it is parsed without a report. -/
theorem derivable_small : ∃ parts, Parts false 100
    (Lexer.lex "diagram d : class { class A<<x>> { +a : int; } }").tokens.dropLast parts := by
  have quiet : ((parse "diagram d : class { class A<<x>> { +a : int; } }").toOption.map
      (·.errors)) = some [] := by decide +kernel
  obtain ⟨-, parsed⟩ := accepts_iff_derivable "diagram d : class { class A<<x>> { +a : int; } }"
  cases returned : parse "diagram d : class { class A<<x>> { +a : int; } }" with
  | error fault => simp [returned, Except.toOption] at quiet
  | ok whole =>
    obtain ⟨errors, -, reported, derivable, -⟩ := parsed whole returned
    have clean : whole.errors = [] := by simpa [returned, Except.toOption] using quiet
    rw [clean] at reported
    exact derivable.1 (List.append_eq_nil_iff.1 reported.symm).2

end ArchDiagram.Syntax
