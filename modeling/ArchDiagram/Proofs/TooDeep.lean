import ArchDiagram.Proofs.FirstEnd
import ArchDiagram.Proofs.Holes

/-!
What lies too deep has no part in what a list of tokens is read to. An opening mark lies too deep if
the tokens in front of it make it so; what then stands between it and its closing mark is left out.
-/

namespace ArchDiagram.Syntax

theorem ofTokens_append {front tokens : List Token}
    (open_ : ∀ token ∈ front, token.kind ≠ .endOfInput) (some_ : tokens ≠ []) :
    Cursor.ofTokens (front ++ tokens) =
      { Cursor.ofTokens tokens with rest := front ++ (Cursor.ofTokens tokens).rest } := by
  have last : (front ++ tokens).getLast? = tokens.getLast? :=
    List.getLast?_append_of_ne_nil front some_
  have final : endOf (front ++ tokens) = endOf tokens := by
    rw [endOf, List.find?_append, List.find?_eq_none.2 (by simpa using open_), Option.none_or,
      closingToken, last]
    rfl
  have whole : ended (front ++ tokens) = front ++ ended tokens := by
    rw [ended, ended, closingToken, last]
    split
    · rfl
    · exact List.append_assoc ..
  simp only [Cursor.ofTokens, final, whole, Cursor.mk.injEq, true_and, and_true]
  constructor
  · exact List.takeWhile_append_of_pos (by simpa using open_)
  · rw [List.dropWhile_append_of_pos (by simpa using open_)]

/-- An opening mark lies too deep behind a front of tokens. The front alone decides that: read with
nothing behind the mark, too deep a level is what is reported at its place, and nothing else is. No
other token stands there. -/
structure LiesTooDeep (front : List Token) (first : Token) : Prop where
  apart : ∀ token ∈ front, token.position ≠ first.position
  nonempty : first.position.offset < first.stop
  reported : ∃ parsed, parseTokens (front ++ [first]) = .ok parsed ∧
    parsed.errors.filter (·.position = first.position) = [⟨.nestingTooDeep, first.position⟩]

theorem kind_ne_of_brackets {first last : Token} (marks : (first.kind, last.kind) ∈ brackets) :
    first.kind ≠ .endOfInput ∧ last.kind ≠ .endOfInput := by
  rw [brackets] at marks
  grind

theorem LiesTooDeep.ahead {front : List Token} {hole : Hole} (deep : LiesTooDeep front hole.first)
    (open_ : ∀ token ∈ front ++ [hole.first], token.kind ≠ .endOfInput) :
    hole.Ahead (.ofTokens (front ++ [hole.first])) where
  rest := ⟨front, List.takeWhile_eq_self_iff.2 (by simpa using open_), deep.apart⟩
  final := by
    have final : (Cursor.ofTokens (front ++ [hole.first])).final =
        closingToken (front ++ [hole.first]) := endOf_of_open open_
    rw [final, closingToken, List.getLast?_concat]
    exact fun same => Nat.ne_of_gt deep.nonempty (congrArg Position.offset same)
  errors := by simp [Cursor.ofTokens]

theorem Hole.Missed.filter_ne {hole : Hole} {c : Cursor} (missed : hole.Missed c) :
    c.errors.reverse.filter (·.position = hole.first.position) ≠
      [⟨.nestingTooDeep, hole.first.position⟩] := by
  intro reported
  have here : ∀ error ∈ c.errors, error.position = hole.first.position →
      error = ⟨.nestingTooDeep, hole.first.position⟩ := by
    intro error member place
    have found : error ∈ c.errors.reverse.filter (·.position = hole.first.position) := by
      simp [member, place]
    simpa [reported] using found
  cases missed with
  | reported member place other => exact other (congrArg SyntaxError.cause (here _ member place))
  | taken errors =>
    have found : (⟨.nestingTooDeep, hole.first.position⟩ : SyntaxError) ∈
        c.errors.reverse.filter (·.position = hole.first.position) := by simp [reported]
    exact errors _ (by simpa using found) rfl

section Parse

variable {front : List Token} {first last : Token} {inner inner' behind : List Token}

theorem parseTokens_of_end_mem (ends : ∃ token ∈ front, token.kind = .endOfInput)
    (tokens others : List Token) :
    parseTokens (front ++ tokens) = parseTokens (front ++ others) := by
  -- What stands behind an end is not read, so it is no matter what it is.
  have found : (front.find? (·.kind = .endOfInput)).isSome := by simpa using ends
  obtain ⟨final, here⟩ := Option.isSome_iff_exists.1 found
  obtain ⟨closes, before, more, rfl, open_⟩ := List.find?_eq_some_iff_append.1 here
  simp only [decide_eq_true_eq, Bool.not_eq_eq_eq_not, Bool.not_true,
    decide_eq_false_iff_not] at closes open_
  rw [List.append_assoc, List.append_assoc, List.cons_append, List.cons_append]
  apply parseTokens_of_sameUpToEnd
  constructor
  · exact (takeWhile_append open_ closes _).trans (takeWhile_append open_ closes _).symm
  · exact (endOf_append open_ closes _).trans (endOf_append open_ closes _).symm
  · rfl
  · rfl

theorem parseTokens_of_liesTooDeep (deep : LiesTooDeep front first)
    (marks : (first.kind, last.kind) ∈ brackets)
    (balanced : Balanced first.kind last.kind inner)
    (balanced' : Balanced first.kind last.kind inner')
    (open_ : ∀ token ∈ inner, token.kind ≠ .endOfInput)
    (open' : ∀ token ∈ inner', token.kind ≠ .endOfInput) :
    parseTokens (front ++ first :: (inner ++ last :: behind)) =
      parseTokens (front ++ first :: (inner' ++ last :: behind)) := by
  by_cases ends : ∃ token ∈ front, token.kind = .endOfInput
  · exact parseTokens_of_end_mem ends _ _
  · have kinds := kind_ne_of_brackets marks
    have fronts : ∀ token ∈ front, token.kind ≠ .endOfInput := by simpa using ends
    let hole : Hole :=
      ⟨first, last, (Cursor.ofTokens (last :: behind)).rest.tail, .ofTokens (last :: behind), marks⟩
    have start : ∀ token ∈ front ++ [hole.first], token.kind ≠ .endOfInput := by
      simpa [or_imp, forall_and] using ⟨fronts, kinds.1⟩
    have ahead : hole.Ahead (.ofTokens (front ++ [first])) := deep.ahead start
    -- Both lists are the front with the tokens in the hole.
    have filled (inner : List Token) (open_ : ∀ token ∈ inner, token.kind ≠ .endOfInput) :
        hole.fill inner (.ofTokens (front ++ [first])) =
          .ofTokens (front ++ first :: (inner ++ last :: behind)) := by
      have opens : ∀ token ∈ front ++ first :: inner, token.kind ≠ .endOfInput := by
        simpa [or_imp, forall_and] using ⟨fronts, kinds.1, open_⟩
      have whole := ofTokens_append opens (List.cons_ne_nil last behind)
      have closes : (Cursor.ofTokens (last :: behind)).rest =
          last :: (Cursor.ofTokens (last :: behind)).rest.tail := by
        simp [Cursor.ofTokens, kinds.2]
      have begins : (Cursor.ofTokens (front ++ [first])).rest = front ++ [first] :=
        List.takeWhile_eq_self_iff.2 (by simpa using start)
      rw [List.append_assoc, List.cons_append] at whole
      rw [whole, Hole.fill, begins, closes]
      simp [hole, Cursor.ofTokens]
    have indifferent : Indifferent hole inner inner' program :=
      shortsighted_program.indifferent balanced balanced'
    have runs := indifferent _ ahead
    rw [filled inner open_, filled inner' open'] at runs
    obtain ⟨parsed, run, reported⟩ := deep.reported
    unfold parseTokens at run ⊢
    generalize found : program.run (.ofTokens (front ++ [first])) = x at runs run
    generalize program.run _ = y at runs ⊢
    generalize program.run _ = z at runs ⊢
    cases runs with
    | ahead here =>
      obtain ⟨-, -, -, ends⟩ := chain_of_program found
      exact absurd ends here.rest_ne_nil
    | past => rfl
    | failed => cases run
    | missed lost =>
      obtain rfl := Except.ok.inj run
      exact absurd reported lost.filter_ne

end Parse

/-- Where no level is left, what stands between the marks of a package or of type arguments is left
out, whatever it is, if only its own marks match: an empty package or a type without arguments is
read, reading goes on behind the closing mark with the same levels as before, and the opening mark
is the only token that is reported. So it makes no difference to the tree and the errors of a whole
list of tokens what stands there. -/
theorem tooDeep_skipped :
    (∀ (c : Cursor) (word name first last : Token) (inner behind : List Token),
      c.rest = word :: name :: first :: (inner ++ last :: behind) →
      word.kind = .keyword .package → name.kind = .identifier →
      first.kind = .mark .leftBrace → last.kind = .mark .rightBrace →
      Balanced (.mark .leftBrace) (.mark .rightBrace) inner →
      let package := Item.package name.text [] ⟨word.position, max last.stop word.position.offset⟩
      let next := { c with
        rest := behind
        lastStop := last.stop
        errors := ⟨.nestingTooDeep, first.position⟩ :: c.errors }
      (packageWith (bodyAt? 0)).run c = .ok (package, next) ∧
      ∀ region, (items 0 region).run c =
        ((items 0 region).run next).map fun (more, d) => (package :: more, d)) ∧
    (∀ (c : Cursor) (name first last : Token) (inner behind : List Token),
      c.rest = name :: first :: (inner ++ last :: behind) → isTypeName name.kind = true →
      first.kind = .mark .less → last.kind = .mark .greater →
      Balanced (.mark .less) (.mark .greater) inner →
      let span (last : Token) : Span := ⟨name.position, max last.stop name.position.offset⟩
      let type := TypeExpr.simple name.text (span last)
      let next := { c with
        rest := behind
        lastStop := last.stop
        errors := ⟨.nestingTooDeep, first.position⟩ :: c.errors }
      (typeExpr 0).run c = .ok (if next.current.kind = .mark .question
        then (.nullable type (span next.current), next.advance) else (type, next))) ∧
    ∀ (front : List Token) (first last : Token) (inner inner' behind : List Token),
      LiesTooDeep front first → (first.kind, last.kind) ∈ brackets →
      Balanced first.kind last.kind inner → Balanced first.kind last.kind inner' →
      (∀ token ∈ inner, token.kind ≠ .endOfInput) →
      (∀ token ∈ inner', token.kind ≠ .endOfInput) →
      parseTokens (front ++ first :: (inner ++ last :: behind)) =
        parseTokens (front ++ first :: (inner' ++ last :: behind)) := by
  refine ⟨?_, ?_, ?_⟩
  · intro c word name first last inner behind whole package named opens closes balanced
    exact ⟨run_packageWith_none package named opens closes balanced whole,
      run_items_zero package named opens closes balanced whole⟩
  · intro c name first last inner behind whole named opens closes balanced
    exact run_typeExpr_zero named opens closes balanced whole
  · intro front first last inner inner' behind deep marks balanced balanced' open_ open'
    exact parseTokens_of_liesTooDeep deep marks balanced balanced' open_ open'

/-- A package and a type at the last level, and a list of tokens with a hundred and one types one in
the other. Between the marks there stands what is no item and no type. -/
theorem tooDeep_skipped_garbage :
    let token (kind : TokenKind) (text : String) (offset : Nat) : Token :=
      ⟨⟨kind, text⟩, ⟨offset, 1, offset + 1⟩, offset + text.length⟩
    let brace (offset : Nat) := token (.mark .leftBrace) "\x7b" offset
    let closing (offset : Nat) := token (.mark .rightBrace) "\x7d" offset
    let less (offset : Nat) := token (.mark .less) "<" offset
    let greater (offset : Nat) := token (.mark .greater) ">" offset
    let name (offset : Nat) := token .identifier "B" offset
    let colon (offset : Nat) := token (.mark .colon) ":" offset
    let question := token (.mark .question) "?" 6
    let final := token .endOfInput "" 999
    let header := [token (.keyword .diagram) "diagram" 0, name 1, colon 2,
      token (.keyword (.entity .classType)) "class" 3, brace 4,
      token (.keyword (.entity .classType)) "class" 5, name 6, brace 7, name 8, colon 9]
    let level (n : Nat) := [name (10 + 2 * n), less (11 + 2 * n)]
    let front := header ++ ((List.range 100).flatMap level ++ [name 210])
    let tail := [closing 216, closing 217, final]
    let inPackages : Cursor := ⟨[token (.keyword .package) "package" 0, name 1, brace 2, colon 3,
      brace 4, closing 5, closing 6, colon 7], final, [], 0, [], rfl⟩
    let inTypes : Cursor := ⟨[name 0, less 1, colon 2, less 3, greater 4, greater 5, question],
      final, [], 0, [], rfl⟩
    (packageWith (bodyAt? 0)).run inPackages = .ok (.package "B" [] ⟨⟨0, 1, 1⟩, 7⟩,
      ⟨[colon 7], final, [], 7, [⟨.nestingTooDeep, ⟨2, 1, 3⟩⟩], rfl⟩) ∧
    (typeExpr 0).run inTypes = .ok (.nullable (.simple "B" ⟨⟨0, 1, 1⟩, 6⟩) ⟨⟨0, 1, 1⟩, 7⟩,
      ⟨[], final, [], 7, [⟨.nestingTooDeep, ⟨1, 1, 2⟩⟩], rfl⟩) ∧
    parseTokens (front ++ less 211 ::
        ([colon 212, less 213, greater 214] ++ greater 215 :: tail)) =
      parseTokens (front ++ less 211 :: ([] ++ greater 215 :: tail)) := by
  intro token brace closing less greater name colon question final header level front tail
    inPackages inTypes
  obtain ⟨package, type, parses⟩ := tooDeep_skipped
  have deep : LiesTooDeep front (less 211) := by
    have reported : (parseTokens (front ++ [less 211])).toOption.map
        (·.errors.filter (·.position = (less 211).position)) =
          some [⟨.nestingTooDeep, (less 211).position⟩] := by decide +kernel
    exact ⟨by decide +kernel, by decide, ok_of_toOption_map reported⟩
  have braces : Balanced (.mark .leftBrace) (.mark .rightBrace) [colon 3, brace 4, closing 5] :=
    .other (by decide) (by decide) (@Balanced.nested _ _ _ _ [] [] rfl rfl .nil .nil)
  have angles (first second third : Nat) :
      Balanced (.mark .less) (.mark .greater) [colon first, less second, greater third] :=
    .other (by simp [colon, token]) (by simp [colon, token])
      (@Balanced.nested _ _ _ _ [] [] rfl rfl .nil .nil)
  refine ⟨?_, ?_, ?_⟩
  · exact (package inPackages _ _ _ (closing 6) _ [colon 7] rfl rfl rfl rfl rfl braces).1
  · exact type inTypes _ _ (greater 5) _ [question] rfl rfl rfl rfl (angles 2 3 4)
  · have marks : ((less 211).kind, (greater 215).kind) ∈ brackets := by
      simp [brackets, less, greater, token]
    exact parses front (less 211) (greater 215) _ [] tail deep marks (angles 212 213 214) .nil
      (by decide) (by simp)

end ArchDiagram.Syntax
