import ArchDiagram.Proofs.Lexing
import ArchDiagram.Proofs.Grammar.Soundness

/-!
The parser ends on every list of tokens. Only a token without a value can stop it, and without such
a token it comes to the first end in the list. It gets there because every round of its loops takes
a token, and on its way it looks at no place outside the list.
-/

namespace ArchDiagram.Syntax

theorem not_faulty {token : Token}
    (operators : token.kind.isRelation = true → ∃ operator : RelationOperator,
      token.text = operator.symbol)
    (numbers : token.kind = .number → Numeric token.text.toList ∧ ShortRuns token.text.toList)
    (fault : Fault) : ¬ Faulty token fault := by
  rintro (⟨kind, undefined⟩ | ⟨kind, undefined⟩)
  · obtain ⟨numeric, short⟩ := numbers kind
    obtain ⟨⟨value, shown⟩, ⟨decimal, rounded⟩⟩ := numberValue_ok numeric short
    rcases undefined with undefined | undefined
    · rw [shown] at undefined
      cases undefined
    · rw [rounded] at undefined
      cases undefined
  · obtain ⟨operator, text⟩ := operators kind
    rw [text, Grammar.relationOperator_symbol] at undefined
    cases undefined

theorem ended_of_open {tokens : List Token} (open_ : ∀ token ∈ tokens, token.kind ≠ .endOfInput) :
    ended tokens = tokens ++ [closingToken tokens] := by
  refine if_neg fun last => ?_
  cases found : tokens.getLast? with
  | none => simp [found] at last
  | some token => exact open_ token (List.mem_of_getLast? found) (by simpa [found] using last)

theorem endOf_of_open {tokens : List Token} (open_ : ∀ token ∈ tokens, token.kind ≠ .endOfInput) :
    endOf tokens = closingToken tokens := by
  rw [endOf, List.find?_eq_none.2 (by simpa using open_)]
  rfl

section Front

variable {tokens : List Token} {final : Token}
  (open_ : ∀ token ∈ tokens, token.kind ≠ .endOfInput) (ends : final.kind = .endOfInput)
  (rest : List Token)

include open_ ends

theorem endOf_append : endOf (tokens ++ final :: rest) = final := by
  have none_ : tokens.find? (·.kind = .endOfInput) = none :=
    List.find?_eq_none.2 (by simpa using open_)
  rw [endOf, List.find?_append, none_, Option.none_or, List.find?_cons_of_pos (by simpa using ends)]
  rfl

theorem takeWhile_append : (tokens ++ final :: rest).takeWhile (·.kind ≠ .endOfInput) = tokens := by
  rw [List.takeWhile_append_of_pos (by simpa using open_),
    List.takeWhile_cons_of_neg (by simpa using ends), List.append_nil]

theorem dropWhile_append :
    (tokens ++ final :: rest).dropWhile (·.kind ≠ .endOfInput) = final :: rest := by
  rw [List.dropWhile_append_of_pos (by simpa using open_),
    List.dropWhile_cons_of_neg (by simpa using ends)]

end Front

theorem ended_eq (tokens : List Token) : ended tokens =
    (Cursor.ofTokens tokens).rest ++ endOf tokens :: (Cursor.ofTokens tokens).behind := by
  have shape : ∃ front final behind, (∀ token ∈ front, token.kind ≠ .endOfInput) ∧
      final.kind = .endOfInput ∧ ended tokens = front ++ final :: behind ∧
      (Cursor.ofTokens tokens).rest = front ∧ endOf tokens = final := by
    cases found : tokens.find? (·.kind = .endOfInput) with
    | none =>
      have open_ : ∀ token ∈ tokens, token.kind ≠ .endOfInput := by
        simpa using List.find?_eq_none.1 found
      exact ⟨tokens, _, [], open_, kind_closingToken tokens, ended_of_open open_,
        List.takeWhile_eq_self_iff.2 (by simpa using open_), endOf_of_open open_⟩
    | some final =>
      obtain ⟨ends, front, rest, rfl, open_⟩ := List.find?_eq_some_iff_append.1 found
      simp only [decide_eq_true_eq, Bool.not_eq_eq_eq_not, Bool.not_true,
        decide_eq_false_iff_not] at ends open_
      have whole : ∃ behind, ended (front ++ final :: rest) = front ++ final :: behind := by
        unfold ended
        split
        · exact ⟨rest, rfl⟩
        · exact ⟨rest ++ [_], List.append_assoc ..⟩
      obtain ⟨behind, whole⟩ := whole
      exact ⟨front, final, behind, open_, ends, whole, takeWhile_append open_ ends rest,
        endOf_append open_ ends rest⟩
  obtain ⟨front, final, behind, open_, ends, whole, read, first⟩ := shape
  have seen : (Cursor.ofTokens tokens).behind = behind := by
    rw [Cursor.ofTokens, whole, dropWhile_append open_ ends, List.tail_cons]
  rw [whole, read, first, seen]

theorem Cursor.Reaches.behind_eq {c d : Cursor} (reached : c.Reaches d) : d.behind = c.behind := by
  have advance (e : Cursor) : e.advance.behind = e.behind := by
    unfold Cursor.advance
    split <;> rfl
  induction reached with
  | refl => rfl
  | advance _ ih => rw [advance, ih]
  | report cause _ ih => exact ih
  | reportTaken cause _ ih => exact (advance _).trans ih

def bodyLength (tokens : List Token) : Nat := (tokens.takeWhile (·.kind ≠ .endOfInput)).length

/-- Every token that the parser can come to look at stands in the list, at its first end or before,
and so does the one that is read behind it. Looking ahead shows the next token of the list, whether or
not the first end is in between; only the last token has none behind it and stands for itself. -/
theorem Cursor.Reaches.in_list {tokens : List Token} {d : Cursor}
    (reached : (Cursor.ofTokens tokens).Reaches d) : ∃ i ≤ bodyLength tokens,
      (ended tokens)[i]? = some d.current ∧
      (ended tokens)[min (i + 1) (bodyLength tokens)]? = some d.following ∧
      (ended tokens)[min (i + 1) ((ended tokens).length - 1)]? = some d.ahead := by
  obtain ⟨taken, whole⟩ := reached.rest_suffix
  have final : d.final = endOf tokens := reached.final_eq
  have shape := ended_eq tokens
  rw [← whole, ← final, ← reached.behind_eq, List.append_assoc] at shape
  have length : bodyLength tokens = taken.length + d.rest.length :=
    (congrArg List.length whole).symm.trans List.length_append
  refine ⟨taken.length, by omega, ?_, ?_, ?_⟩
  · rw [shape, List.getElem?_append_right (Nat.le_refl _), Nat.sub_self, Cursor.current]
    cases d.rest <;> rfl
  · have next : min (taken.length + 1) (bodyLength tokens) =
        taken.length + min 1 d.rest.length := by omega
    rw [next, shape, List.getElem?_append_right (Nat.le_add_right ..), Nat.add_sub_cancel_left,
      Cursor.following]
    -- One token at least is left, so it is told by the next two of them.
    rcases d.rest with _ | ⟨token, _ | ⟨next, rest⟩⟩
    · rfl
    · rfl
    · simp
  · have next : min (taken.length + 1) ((ended tokens).length - 1) =
        taken.length + min 1 (d.rest ++ d.final :: d.behind).tail.length := by
      simp only [shape, List.length_append, List.length_cons, List.length_tail]
      omega
    rw [next, shape, List.getElem?_append_right (Nat.le_add_right ..), Nat.add_sub_cancel_left,
      Cursor.ahead, Cursor.following]
    rcases d.rest with _ | ⟨token, _ | ⟨next, rest⟩⟩
    · cases d.behind <;> simp
    · simp
    · simp

/-- In each of the loops that skip what they cannot use, every round takes a token. -/
structure RoundsTakeTokens : Prop where
  topLevel : TakesToken topLevel
  body (budget : Nat) (region : Region) : ∃ item,
    items budget region = many (.mark .rightBrace) region item ∧
    TakesToken (manyRound (.mark .rightBrace) region item)
  members (budget : Nat) (kind : EntityKind) : TakesToken
    (manyRound (.mark .rightBrace) (.entityBody kind) (member budget kind))
  attributes : TakesToken
    (manyRound (.mark .rightBracket) .relationAttributes (setting attributeValue [.mark .comma]))
  styles : TakesToken (manyRound (.mark .rightBrace) .styleBlock
    (setting styleValue [.mark .semicolon, .mark .comma]))

def bodyAt? : (budget : Nat) → Option (Reader (List Item))
  | 0 => none
  | budget + 1 => some (items budget .packageBody)

def itemAt (budget : Nat) (region : Region) : Reader (Option Item) :=
  item budget region (packageWith (bodyAt? budget))

theorem items_eq (budget : Nat) (region : Region) :
    items budget region = many (.mark .rightBrace) region (itemAt budget region) := by
  cases budget <;> rfl

theorem takesToken_itemRound (budget : Nat) (region : Region) :
    TakesToken (manyRound (.mark .rightBrace) region (itemAt budget region)) := by
  cases budget with
  | zero =>
    have packages : ∀ c, Outcome (packageWith (bodyAt? 0)) c
        (Reads (Grammar.ItemWith true 0 fun _ _ => False) c) :=
      outcome_packageWith (by simp [bodyAt?])
    exact takesToken_manyRound (outcome_item packages)
  | succ budget =>
    have packages : ∀ c, Outcome (packageWith (bodyAt? (budget + 1))) c
        (Reads (Grammar.ItemWith true (budget + 1) (Grammar.ItemsIn true budget)) c) := by
      refine outcome_packageWith fun reader member => ?_
      obtain rfl := Option.some.inj member
      exact outcome_items budget .packageBody true
    exact takesToken_manyRound (outcome_item packages)

theorem roundsTakeTokens : RoundsTakeTokens where
  topLevel := takesToken_topLevel
  body budget region := ⟨_, items_eq budget region, takesToken_itemRound budget region⟩
  members budget kind := takesToken_manyRound (outcome_member budget kind)
  attributes := takesToken_manyRound (outcome_setting (by simp) outcome_attributeValue)
  styles := takesToken_manyRound (outcome_setting (by simp) outcome_styleValue)

theorem eq_of_topLevel_none {c d : Cursor} (run : topLevel.run c = .ok (none, d)) :
    d = c ∧ c.rest = [] := by
  rw [topLevel, run_get_bind] at run
  split at run
  · next ends =>
    obtain ⟨-, rfl⟩ := Prod.mk.inj (Except.ok.inj run)
    exact ⟨rfl, by simpa using ends⟩
  · dsimp only at run
    split at run
    · obtain ⟨_, -, never⟩ := run_of_bind_pure run
      cases never
    · obtain ⟨_, -, never⟩ := run_of_bind_pure run
      cases never
    · cases (Prod.mk.inj (Except.ok.inj run)).1

/-- The parts of a program are read one behind the other, up to the end of the tokens. -/
theorem chain_of_program {c d : Cursor} {tree : Program} (run : program.run c = .ok (tree, d)) :
    ∃ parts, tree = ⟨importsOf parts, diagramsOf parts, ⟨c.current.position, d.current.stop⟩⟩ ∧
      Chain (fun c part d => topLevel.run c = .ok (some part, d)) c parts d ∧ d.rest = [] := by
  rw [program, run_current_bind] at run
  obtain ⟨parts, e, loop, last⟩ := run_of_bind run
  obtain ⟨rfl, rfl⟩ := Prod.mk.inj (Except.ok.inj last)
  obtain ⟨m, chain, done⟩ := chain_of_repeatWhile takesToken_topLevel loop
  obtain ⟨rfl, ends⟩ := eq_of_topLevel_none done
  exact ⟨parts, rfl, chain, ends⟩

/-- Where no token can stop it, the parser comes to the end of the tokens. -/
theorem run_program_ok {c : Cursor}
    (sound : ∀ d, c.Reaches d → ∀ fault, ¬ Faulty d.current fault) :
    ∃ tree last, program.run c = .ok (tree, last) ∧ c.Reaches last ∧ last.rest = [] := by
  have out := outcome_program true c
  cases run : program.run c with
  | error fault =>
    obtain ⟨d, reached, faulty⟩ := out.faulty run
    exact absurd faulty (sound d reached fault)
  | ok found =>
    obtain ⟨tree, last⟩ := found
    obtain ⟨-, -, -, ends⟩ := chain_of_program run
    exact ⟨tree, last, rfl, out.reaches run, ends⟩

theorem current_of_reaches {tokens : List Token} {d : Cursor}
    (reached : (Cursor.ofTokens tokens).Reaches d) :
    d.current ∈ tokens ∨ d.current.kind = .endOfInput := by
  cases rest : d.rest with
  | nil => exact .inr (by simpa [Cursor.current, rest] using d.kind_final)
  | cons token more =>
    left
    have member : token ∈ (Cursor.ofTokens tokens).rest :=
      reached.rest_suffix.subset (by simp [rest])
    simpa [Cursor.current, rest] using (List.takeWhile_prefix _).subset member

theorem sound_of_members {tokens : List Token}
    (sound : ∀ token ∈ tokens, ∀ fault, ¬ Faulty token fault) (d : Cursor)
    (reached : (Cursor.ofTokens tokens).Reaches d) (fault : Fault) : ¬ Faulty d.current fault := by
  rcases current_of_reaches reached with member | ends
  · exact sound _ member fault
  · simp [Faulty, ends, TokenKind.isRelation]

theorem parseTokens_of_run {tokens : List Token} {tree : Program} {last : Cursor}
    (run : program.run (.ofTokens tokens) = .ok (tree, last)) :
    parseTokens tokens = .ok ⟨tree, last.errors.reverse⟩ := by
  rw [parseTokens, run]
  rfl

/-- Parsing the tokens of a source gives a tree, unless a run of digits in it is too long. -/
theorem parse_ok {source : String} (short : ShortRuns source.toList) :
    ∃ parsed, parse source = .ok parsed := by
  have sound : ∀ token ∈ (Lexer.lex source).tokens, ∀ fault, ¬ Faulty token fault := by
    intro token member
    rw [Lexer.tokens_eq, List.mem_append] at member
    rcases member with member | ends
    · refine not_faulty (fun relation => ?_) fun number => ?_
      · obtain ⟨operator, kind⟩ := Grammar.isRelation_iff.1 relation
        exact ⟨operator, Lexer.operator_of_mem_tokens member kind⟩
      · obtain ⟨numeric, inside⟩ := Lexer.number_of_mem_tokens member number
        exact ⟨numeric, short.infix inside⟩
    · obtain rfl := List.mem_singleton.1 ends
      simp [Faulty, Lexer.endToken, TokenKind.isRelation]
  obtain ⟨tree, last, run, -⟩ := run_program_ok (sound_of_members sound)
  rw [parse, parseTokens_of_run run]
  exact ⟨_, rfl⟩

/-- The parser ends on every list of tokens that have a value, at the first end in the list. It looks
at nothing outside the list, its loops take a token in every round, and so every source without a
long run of digits is parsed. -/
theorem parser_total (tokens : List Token)
    (operators : ∀ token ∈ tokens, token.kind.isRelation = true →
      ∃ operator : RelationOperator, token.text = operator.symbol)
    (numbers : ∀ token ∈ tokens, token.kind = .number →
      Numeric token.text.toList ∧ token.text.toList.countP Lexer.isDigit ≤ Decimal.digitLimit) :
    (∃ tree last, program.run (.ofTokens tokens) = .ok (tree, last) ∧
      parseTokens tokens = .ok ⟨tree, last.errors.reverse⟩ ∧
      (Cursor.ofTokens tokens).Reaches last ∧ last.rest = [] ∧ last.current = endOf tokens) ∧
    (∀ d, (Cursor.ofTokens tokens).Reaches d → ∃ i ≤ bodyLength tokens,
      (ended tokens)[i]? = some d.current ∧
      (ended tokens)[min (i + 1) (bodyLength tokens)]? = some d.following ∧
      (ended tokens)[min (i + 1) ((ended tokens).length - 1)]? = some d.ahead) ∧
    RoundsTakeTokens ∧
    ∀ source : String, ShortRuns source.toList → ∃ parsed, parse source = .ok parsed := by
  have sound : ∀ token ∈ tokens, ∀ fault, ¬ Faulty token fault := by
    intro token member
    refine not_faulty (operators token member) fun kind => ?_
    obtain ⟨numeric, few⟩ := numbers token member kind
    exact ⟨numeric, shortRuns_of_countP few⟩
  refine ⟨?_, fun d reached => reached.in_list, roundsTakeTokens, fun source => parse_ok⟩
  obtain ⟨tree, last, run, reached, ends⟩ := run_program_ok (sound_of_members sound)
  have final : last.current = endOf tokens := by
    rw [Cursor.current, ends, List.headD_nil, reached.final_eq]
    rfl
  exact ⟨tree, last, run, parseTokens_of_run run, reached, ends, final⟩

/-- An operator, a number, an end in the middle and a name behind it that starts before them all. -/
theorem parser_total_crossed :
    ∃ tree last, program.run (.ofTokens
      [⟨⟨.relation .directedAssociation, "-->"⟩, ⟨7, 1, 8⟩, 10⟩, ⟨⟨.number, "12"⟩, ⟨4, 1, 5⟩, 6⟩,
        ⟨⟨.endOfInput, ""⟩, ⟨9, 1, 10⟩, 9⟩, ⟨⟨.identifier, "A"⟩, .start, 1⟩]) = .ok (tree, last) ∧
      last.current = ⟨⟨.endOfInput, ""⟩, ⟨9, 1, 10⟩, 9⟩ := by
  have number : "12".toList = [] ++ (['1', '2'] ++ []) := by decide
  have total := parser_total
    [⟨⟨.relation .directedAssociation, "-->"⟩, ⟨7, 1, 8⟩, 10⟩, ⟨⟨.number, "12"⟩, ⟨4, 1, 5⟩, 6⟩,
      ⟨⟨.endOfInput, ""⟩, ⟨9, 1, 10⟩, 9⟩, ⟨⟨.identifier, "A"⟩, .start, 1⟩]
    (by
      simp only [List.forall_mem_cons, TokenKind.isRelation]
      exact ⟨fun _ => ⟨.directedAssociation, rfl⟩, by simp, by simp, by simp, by simp⟩)
    (by
      simp only [List.forall_mem_cons]
      refine ⟨by simp, fun _ => ⟨?_, by decide⟩, by simp, by simp, by simp⟩
      rw [number]
      exact .mk (.inl rfl) ⟨by simp, by simp [Lexer.isDigit]⟩ (.inl rfl))
  obtain ⟨⟨tree, last, run, -, -, -, final⟩, -⟩ := total
  exact ⟨tree, last, run, final⟩

end ArchDiagram.Syntax
