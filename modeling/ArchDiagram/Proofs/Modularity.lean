import ArchDiagram.Proofs.Acceptance
import ArchDiagram.Proofs.Layout.Meaning
import ArchDiagram.Proofs.LineEnds

/-!
Sources are checked one by one. Behind a source without errors and a line feed, another source is
read as it is alone: nothing that was read before is left in the cursor but the end of the last
token, and that is seen by nothing that is read later. So the programs, the errors, the object
models and the findings of the two stand one behind the other, those of the second one moved.
-/

namespace ArchDiagram

theorem meaning_joined {f : Span → Span} {whole tree other : Program}
    (joined : whole.diagrams = tree.diagrams ++ other.diagrams.map (·.mapSpans f)) :
    (Analysis.lower whole).diagrams =
      (Analysis.lower tree).diagrams ++ (Analysis.lower other).diagrams ∧
    Analysis.findings whole = Analysis.findings tree ++
      (Analysis.findings other).map (Analysis.Finding.mapSpan f) := by
  constructor
  · rw [← Analysis.lower_mapSpans f other, Analysis.lower, joined, List.map_append]
    rfl
  · rw [← Analysis.findings_mapSpans, Analysis.findings, joined, List.flatMap_append]
    rfl

namespace Syntax

open Grammar

/-- A program is read part by part, and all that is read besides is where it starts and ends. -/
theorem parse_eq (source : String) :
    parse source = (repeatWhile topLevel (.ofTokens (Lexer.lex source).tokens)).map
      fun (parts, last) => ⟨⟨importsOf parts, diagramsOf parts,
        ⟨(Cursor.ofTokens (Lexer.lex source).tokens).current.position, last.current.stop⟩⟩,
        (Lexer.lex source).errors ++ last.errors.reverse⟩ := by
  rw [parse, parseTokens, program, run_current_bind]
  cases run : repeatWhile topLevel (.ofTokens (Lexer.lex source).tokens) with
  | error fault =>
    have read : StateT.run (repeatWhile topLevel : Reader _) _ = .error fault := run
    rw [run_bind_of_error read]
    rfl
  | ok found =>
    have read : StateT.run (repeatWhile topLevel : Reader _) _ = .ok found := run
    rw [run_bind_of_ok read]
    rfl

section Joined

variable {first second : String} {tree : Program}

theorem moved_behind (quiet : (Lexer.lex first).errors = []) (second : String) : ∃ d,
    (Cursor.ofTokens (Lexer.lex (first ++ "\n" ++ second)).tokens).Takes
      (Lexer.lex first).tokens.dropLast d ∧
    (Cursor.ofTokens (Lexer.lex second).tokens).Moved (.behind first) d := by
  have rest := Lexer.rest_ofTokens (first ++ "\n" ++ second)
  rw [Lexer.tokens_joined (Lexer.closed_of_quiet quiet)] at rest
  obtain ⟨d, taken, behind⟩ := Cursor.takes_front rest
  refine ⟨d, taken, ?_, ?_, taken.errors_eq, ?_⟩
  · rw [behind, Lexer.rest_ofTokens]
  · rw [taken.final_eq, Lexer.final_ofTokens, Lexer.final_ofTokens, Lexer.endToken_joined]
  · -- Alone the second source starts with no last token; here it is the last one of the first.
    refine .inr ⟨rfl, ?_⟩
    cases last : (Lexer.lex first).tokens.dropLast.getLast? with
    | none =>
      rw [List.getLast?_eq_none_iff.1 last, Cursor.takes_nil_iff] at taken
      rw [taken]
      exact Nat.zero_le _
    | some token =>
      have inside := (Lexer.position_of_mem_tokens (List.mem_of_getLast? last)).1
      rw [taken.lastStop_eq last]
      rw [String.length_toList] at inside
      exact Nat.le_succ_of_le inside

/-- The parts of the first source are read, and then those of the second one, moved. -/
theorem repeatWhile_joined (clean : parse first = .ok ⟨tree, []⟩)
    (apart : ∀ token ∈ (Lexer.lex second).tokens.head?, token.kind ≠ .mark .semicolon)
    {parts : List TopLevel} {last : Cursor}
    (run : repeatWhile topLevel (.ofTokens (Lexer.lex second).tokens) = .ok (parts, last)) :
    ∃ own last', tree.imports = importsOf own ∧ tree.diagrams = diagramsOf own ∧
      last.Moved (.behind first) last' ∧
      repeatWhile topLevel (.ofTokens (Lexer.lex (first ++ "\n" ++ second)).tokens) =
        .ok (own ++ parts.map (·.mapSpans (Shift.behind first).span), last') := by
  obtain ⟨quiet, parsed⟩ := quiet_of_parse clean
  obtain ⟨own, derived, rfl⟩ := derivation_of_quiet true parsed
  obtain ⟨d, taken, moved⟩ := moved_behind quiet second
  have orderly := Lexer.orderly_tokens (first ++ "\n" ++ second)
  rw [← Lexer.rest_ofTokens] at orderly
  have next : d.current.kind ≠ .mark .semicolon := by
    rw [moved.current, Shift.kind_token]
    exact apart _ (head?_tokens second)
  have agree : Agree (movedBy (.behind first)) _ _ _ := agree_topLevel.repeatWhile
  have sides : Results (Cursor.Moved (.behind first)) _ (repeatWhile topLevel _)
      (repeatWhile topLevel d) := agree moved
  rw [run] at sides
  generalize behind : repeatWhile topLevel d = result at sides
  cases sides with
  | @ok _ parts' _ last' same moved =>
    -- Only the spans of the second source alone are moved; those behind the first stay.
    have all : parts'.map (·.mapSpans id) = parts' :=
      (List.map_congr_left fun part _ => part.mapSpans_id).trans (List.map_id _)
    obtain rfl : parts.map (·.mapSpans (Shift.behind first).span) = parts' := same.trans all
    refine ⟨own, last', rfl, rfl, moved, ?_⟩
    rw [repeatWhile_topLevel derived taken orderly next, behind]
    rfl

/-- Two sources joined by a line feed mean what they mean one by one, if the first one has no errors
and the second one does not begin with a semicolon. The imports, diagrams, errors and findings of
the second source stand behind those of the first one, moved by its characters and lines, and the
object model has the diagrams of both as they are. -/
theorem joined_modular {other : Program} {errors : List SyntaxError}
    (clean : parse first = .ok ⟨tree, []⟩) (returned : parse second = .ok ⟨other, errors⟩)
    (apart : ∀ token ∈ (Lexer.lex second).tokens.head?, token.kind ≠ .mark .semicolon) :
    ∃ whole, parse (first ++ "\n" ++ second) =
        .ok ⟨whole, errors.map (Shift.behind first).error⟩ ∧
      whole.imports = tree.imports ++ other.imports.map (·.mapSpans (Shift.behind first).span) ∧
      whole.diagrams = tree.diagrams ++ other.diagrams.map (·.mapSpans (Shift.behind first).span) ∧
      (Analysis.lower whole).diagrams =
        (Analysis.lower tree).diagrams ++ (Analysis.lower other).diagrams ∧
      Analysis.findings whole = Analysis.findings tree ++
        (Analysis.findings other).map (Analysis.Finding.mapSpan (Shift.behind first).span) := by
  rw [parse_eq] at returned
  cases run : repeatWhile topLevel (.ofTokens (Lexer.lex second).tokens) with
  | error fault =>
    rw [run] at returned
    cases returned
  | ok found =>
    obtain ⟨parts, last⟩ := found
    rw [run] at returned
    obtain ⟨rfl, rfl⟩ := Parsed.mk.inj (Except.ok.inj returned)
    obtain ⟨own, last', imports, diagrams, moved, joined⟩ := repeatWhile_joined clean apart run
    obtain ⟨quiet, -⟩ := quiet_of_parse clean
    have errors : (Lexer.lex (first ++ "\n" ++ second)).errors ++ last'.errors.reverse =
        ((Lexer.lex second).errors ++ last.errors.reverse).map (Shift.behind first).error := by
      rw [Lexer.errors_joined quiet, moved.errors, List.map_append, List.map_reverse]
    have imports_ : importsOf (own ++ parts.map (·.mapSpans (Shift.behind first).span)) =
        tree.imports ++ (importsOf parts).map (·.mapSpans (Shift.behind first).span) := by
      rw [imports, ← importsOf_mapSpans]
      exact List.filterMap_append
    have diagrams_ : diagramsOf (own ++ parts.map (·.mapSpans (Shift.behind first).span)) =
        tree.diagrams ++ (diagramsOf parts).map (·.mapSpans (Shift.behind first).span) := by
      rw [diagrams, ← diagramsOf_mapSpans]
      exact List.filterMap_append
    rw [parse_eq, joined, ← errors]
    exact ⟨_, rfl, imports_, diagrams_, meaning_joined diagrams_⟩

/-- A comment and a stray character stand between an import and a malformed diagram. -/
theorem joined_modular_malformed : ∃ whole errors,
    parse ("import \"a\" // c" ++ "\n" ++ "$ diagram e : class { class B extends C { y : } }") =
      .ok ⟨whole, errors⟩ ∧
    errors.map (·.position) = [⟨16, 2, 1⟩, ⟨62, 2, 47⟩] ∧
    whole.imports.map (·.path) = ["a"] ∧
    Analysis.findings whole = [⟨.unknownExtends "B" "C", ⟨⟨38, 2, 23⟩, 63⟩⟩] := by
  have before : (parse "import \"a\" // c").toOption.map (fun parsed => (parsed.errors,
      parsed.program.imports.map (·.path), Analysis.findings parsed.program)) =
      some ([], ["a"], []) := by decide +kernel
  have behind : (parse "$ diagram e : class { class B extends C { y : } }").toOption.map
      (fun parsed => (parsed.errors.map (·.position), parsed.program.imports,
        Analysis.findings parsed.program)) =
      some ([⟨0, 1, 1⟩, ⟨46, 1, 47⟩], [],
        [⟨.unknownExtends "B" "C", ⟨⟨22, 1, 23⟩, 47⟩⟩]) := by decide +kernel
  have word : (Lexer.lex "$ diagram e : class { class B extends C { y : } }").tokens.head?.map
      (·.kind) = some (.keyword .diagram) := by decide +kernel
  obtain ⟨⟨tree, _⟩, clean, rest⟩ := ok_of_toOption_map before
  obtain ⟨rfl, rest⟩ := Prod.mk.inj rest
  obtain ⟨imports, found⟩ := Prod.mk.inj rest
  obtain ⟨⟨other, errors⟩, returned, rest⟩ := ok_of_toOption_map behind
  obtain ⟨positions, rest⟩ := Prod.mk.inj rest
  obtain ⟨none_, found'⟩ := Prod.mk.inj rest
  have apart : ∀ token ∈
      (Lexer.lex "$ diagram e : class { class B extends C { y : } }").tokens.head?,
      token.kind ≠ .mark .semicolon := by
    intro token front
    rw [Option.mem_def.1 front] at word
    simp [Option.some.inj word]
  obtain ⟨whole, joined, imports', -, -, findings⟩ := joined_modular clean returned apart
  refine ⟨whole, _, joined, ?_, ?_, ?_⟩
  · have moved : (errors.map (Shift.behind "import \"a\" // c").error).map (·.position) =
        (errors.map (·.position)).map (Shift.behind "import \"a\" // c").position := by
      rw [List.map_map, List.map_map]
      rfl
    rw [moved, positions]
    decide
  · rw [imports', List.map_append, imports, none_]
    rfl
  · rw [findings, found, found']
    decide

end Joined

end Syntax

end ArchDiagram
