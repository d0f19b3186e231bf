import ArchDiagram.Proofs.Shortsighted

/-!
What lies too deep is left out. Between an opening mark and the closing mark that belongs to it
anything may stand whose own marks match: it is skipped, the opening mark is reported, and reading
goes on behind the closing mark as if nothing had stood in between.
-/

namespace ArchDiagram.Syntax

/-- Lists of tokens whose opening and closing marks match. -/
inductive Balanced (opening closing : TokenKind) : List Token → Prop
  | nil : Balanced opening closing []
  | other {token : Token} {tokens : List Token} : token.kind ≠ opening → token.kind ≠ closing →
      Balanced opening closing tokens → Balanced opening closing (token :: tokens)
  | nested {first last : Token} {inner tokens : List Token} : first.kind = opening →
      last.kind = closing → Balanced opening closing inner → Balanced opening closing tokens →
      Balanced opening closing (first :: (inner ++ last :: tokens))

section Length

variable {opening closing : TokenKind} {token : Token} (depth : Nat) (tokens : List Token)

theorem nestedLength_opening (opens : token.kind = opening) :
    nestedLength opening closing depth (token :: tokens) =
      nestedLength opening closing (depth + 1) tokens + 1 := by
  simp [nestedLength, opens]

theorem nestedLength_other (opens : token.kind ≠ opening) (closes : token.kind ≠ closing) :
    nestedLength opening closing depth (token :: tokens) =
      nestedLength opening closing depth tokens + 1 := by
  simp [nestedLength, opens, closes]

section Closing

variable (differ : opening ≠ closing) (closes : token.kind = closing)

include differ closes

theorem nestedLength_closing : nestedLength opening closing 0 (token :: tokens) = 0 := by
  simp [nestedLength, closes, differ.symm]

theorem nestedLength_closing_succ :
    nestedLength opening closing (depth + 1) (token :: tokens) =
      nestedLength opening closing depth tokens + 1 := by
  simp [nestedLength, closes, differ.symm]

end Closing

variable {depth tokens}

theorem Balanced.nestedLength_append {inner : List Token}
    (balanced : Balanced opening closing inner) (differ : opening ≠ closing) :
    nestedLength opening closing depth (inner ++ tokens) =
      inner.length + nestedLength opening closing depth tokens := by
  induction balanced generalizing depth tokens with
  | nil => simp
  | other opens closes _ ih =>
    rw [List.cons_append, nestedLength_other _ _ opens closes, ih, List.length_cons]
    omega
  | nested opens closes _ _ inside behind =>
    -- One level is opened, and closed again behind what stands inside.
    rw [List.cons_append, List.append_assoc, List.cons_append, nestedLength_opening _ _ opens,
      inside, nestedLength_closing_succ _ _ differ closes, behind]
    simp only [List.length_cons, List.length_append]
    omega

variable (token depth)

theorem nestedLength_cons :
    (∃ open_, ∀ tokens, nestedLength opening closing depth (token :: tokens) =
      nestedLength opening closing open_ tokens + 1) ∨
    ∀ tokens, nestedLength opening closing depth (token :: tokens) = 0 := by
  by_cases opens : token.kind = opening
  · exact .inl ⟨depth + 1, fun tokens => nestedLength_opening depth tokens opens⟩
  · by_cases closes : token.kind = closing
    · have differ : opening ≠ closing := fun same => opens (closes.trans same.symm)
      cases depth with
      | zero => exact .inr fun tokens => nestedLength_closing tokens differ closes
      | succ depth =>
        exact .inl ⟨depth, fun tokens => nestedLength_closing_succ depth tokens differ closes⟩
    · exact .inl ⟨depth, fun tokens => nestedLength_other depth tokens opens closes⟩

/-- The closing mark is found in the front of a list, or it is searched for behind that front. -/
theorem nestedLength_append (front : List Token) :
    (nestedLength opening closing depth front < front.length ∧ ∀ tokens,
      nestedLength opening closing depth (front ++ tokens) =
        nestedLength opening closing depth front) ∨
    ∃ open_, ∀ tokens, nestedLength opening closing depth (front ++ tokens) =
      front.length + nestedLength opening closing open_ tokens := by
  induction front generalizing depth with
  | nil => exact .inr ⟨depth, by simp⟩
  | cons token front ih =>
    rcases @nestedLength_cons opening closing token depth with ⟨next, step⟩ | found
    · simp only [List.cons_append, step, List.length_cons]
      rcases ih next with ⟨found, same⟩ | ⟨open_, same⟩
      · exact .inl ⟨by omega, fun tokens => by rw [same]⟩
      · exact .inr ⟨open_, fun tokens => by rw [same]; omega⟩
    · exact .inl ⟨by simp [found], fun tokens => by rw [List.cons_append, found, found]⟩

end Length

namespace Cursor

namespace Takes

variable {c d : Cursor} {tokens : List Token}

theorem report (taken : c.Takes tokens d) (cause : SyntaxError.Cause) (token : Token) :
    (c.report cause token).Takes tokens (d.report cause token) := by
  induction taken with
  | nil c => exact .nil _
  | cons front _ ih =>
    rw [← advance_report] at ih
    exact .cons (by rw [advance_report]; exact front) ih

theorem repeat_advance (taken : c.Takes tokens d) :
    tokens.length.repeat Cursor.advance c = d := by
  induction tokens using List.reverseRecOn generalizing d with
  | nil => exact (takes_nil_iff.1 taken).symm
  | append_singleton tokens token ih =>
    obtain ⟨m, first, last⟩ := takes_append_iff.1 taken
    rw [List.length_append, last.eq_advance, ← ih first]
    rfl

end Takes

def moved (c : Cursor) (last : Token) (behind : List Token) : Cursor :=
  { c with rest := behind, lastStop := last.stop }

def pastTooDeep (c : Cursor) (first last : Token) (behind : List Token) : Cursor :=
  (c.moved last behind).report .nestingTooDeep first

theorem advance_eq_moved {c : Cursor} {token : Token} {behind : List Token}
    (whole : c.rest = token :: behind) : c.advance = c.moved token behind := by
  simp [advance, whole, moved]

theorem takes_moved {c : Cursor} {tokens : List Token} {last : Token} {behind : List Token}
    (whole : c.rest = tokens ++ last :: behind) :
    c.Takes (tokens ++ [last]) (c.moved last behind) := by
  induction tokens generalizing c with
  | nil =>
    have step := advance_eq_moved whole
    exact .cons (by rw [step, whole]; rfl) (by rw [step]; exact .nil _)
  | cons token tokens ih =>
    have step := advance_eq_moved (by simpa using whole)
    refine .cons (by rw [step, whole]; rfl) ?_
    rw [step]
    exact ih rfl

end Cursor

theorem opening_ne_closing {opening closing other close : TokenKind}
    (marks : (opening, closing) ∈ brackets) (others : (other, close) ∈ brackets) :
    opening ≠ close := by
  rw [brackets] at marks others
  grind

theorem closing_eq {opening closing close : TokenKind} (marks : (opening, closing) ∈ brackets)
    (others : (opening, close) ∈ brackets) : closing = close := by
  rw [brackets] at marks others
  grind

theorem run_many_eq {α : Type} (closing : TokenKind) (region : Region) (item : Reader (Option α))
    (c : Cursor) : (many closing region item).run c =
      (repeatWhile (manyRound closing region item) c).map (Prod.map (List.filterMap id) id) := by
  cases loop : repeatWhile (manyRound closing region item) c with
  | error fault =>
    rw [many]
    exact run_bind_of_error loop
  | ok read => exact run_many loop

def emptied (word name last : Token) : Item :=
  .package name.text [] ⟨word.position, max last.stop word.position.offset⟩

section LeaveOut

variable {opening closing : TokenKind} {c : Cursor} {first last : Token}
  {inner behind : List Token}

theorem run_leaveOut (marks : (opening, closing) ∈ brackets) (closes : last.kind = closing)
    (balanced : Balanced opening closing inner)
    (whole : c.rest = first :: (inner ++ last :: behind)) :
    (leaveOut opening closing).run c = .ok ((), c.pastTooDeep first last behind) := by
  have differ := opening_ne_closing marks marks
  have taken : c.Takes (first :: inner ++ [last]) (c.moved last behind) := Cursor.takes_moved whole
  obtain ⟨m, opens, further⟩ := taken.uncons
  obtain ⟨n, skipped, closed⟩ := Cursor.takes_append_iff.1
    (further.report .nestingTooDeep first)
  have length : nestedLength opening closing 0 (m.report .nestingTooDeep first).rest =
      inner.length := by
    rw [skipped.rest_eq, balanced.nestedLength_append differ, closed.rest_eq,
      List.singleton_append, nestedLength_closing _ differ closes, Nat.add_zero]
  have skips : (skipNested opening closing).run (m.report .nestingTooDeep first) = .ok ((), n) := by
    change Except.ok ((), (nestedLength opening closing 0 _).repeat Cursor.advance _) = _
    rw [length, skipped.repeat_advance]
  have reports : (report .nestingTooDeep first).run m =
      .ok ((), m.report .nestingTooDeep first) := rfl
  rw [leaveOut, run_bind_of_ok opens.runAdvance, run_bind_of_ok reports, run_bind_of_ok skips,
    run_discard (closed.expect closes)]
  rfl

section Package

variable {word name : Token} (package : word.kind = .keyword .package)
  (named : name.kind = .identifier) (opens : first.kind = .mark .leftBrace)
  (closes : last.kind = .mark .rightBrace)
  (balanced : Balanced (.mark .leftBrace) (.mark .rightBrace) inner)
  (whole : c.rest = word :: name :: first :: (inner ++ last :: behind))

include package named opens closes balanced whole

theorem run_packageWith_none :
    (packageWith none).run c = .ok (emptied word name last, c.pastTooDeep first last behind) := by
  have taken : c.Takes ([word] ++ [name]) (c.moved name _) := Cursor.takes_moved whole
  obtain ⟨m, atWord, atName⟩ := Cursor.takes_append_iff.1 taken
  have readsName : expectIdentifier.run m = .ok (name.text, _) := atName.expectText named
  have skips : (leaveOut (.mark .leftBrace) (.mark .rightBrace)).run (c.moved name _) =
      .ok ((), c.pastTooDeep first last behind) :=
    run_leaveOut (by simp [brackets]) closes balanced rfl
  have here : (c.moved name (first :: (inner ++ last :: behind))).current.kind = .mark .leftBrace :=
    opens
  rw [packageWith_none, run_bind_of_ok (atWord.expect package), run_bind_of_ok readsName,
    bind_assoc, run_bind_of_ok (run_isAt _ _), if_pos (decide_eq_true here), run_bind_of_ok skips]
  rfl

theorem run_items_zero (region : Region) :
    (items 0 region).run c = ((items 0 region).run (c.pastTooDeep first last behind)).map
      fun (more, d) => (emptied word name last :: more, d) := by
  have current : c.current = word := by simp [Cursor.current, whole]
  have here : c.current.kind = .keyword .package := current ▸ package
  have reads : (itemAt 0 region).run c =
      .ok (some (emptied word name last), c.pastTooDeep first last behind) := by
    rw [itemAt, item, run_bind_of_ok (run_isAt c _), if_pos (decide_eq_true here), bodyAt?,
      run_bind_of_ok (run_packageWith_none package named opens closes balanced whole)]
    rfl
  -- The round took the word at least, so the loop goes on.
  have shorter : (c.pastTooDeep first last behind).rest.length < c.rest.length := by
    simp only [whole, Cursor.pastTooDeep, Cursor.moved, Cursor.report, List.length_cons,
      List.length_append]
    omega
  have round : (manyRound (.mark .rightBrace) region (itemAt 0 region)).run c =
      .ok (some (some (emptied word name last)), c.pastTooDeep first last behind) := by
    rw [run_manyRound_of_item (by simp [whole, here]), run_bind_of_ok reads, run_get_bind,
      if_neg (Nat.ne_of_lt shorter)]
    rfl
  have loop := repeatWhile_of_some round shorter
  rw [items_eq, run_many_eq, run_many_eq, loop]
  cases repeatWhile (manyRound (.mark .rightBrace) region (itemAt 0 region))
    (c.pastTooDeep first last behind) <;> rfl

end Package

theorem run_accept_question (first : Token) (base : TypeExpr) (d : Cursor) :
    (accept (.mark .question) >>= fun question =>
      if question then spanFrom first >>= fun span => pure (.nullable base span)
      else pure base : Reader TypeExpr).run d =
    .ok (if d.current.kind = .mark .question then (.nullable base
      ⟨first.position, max d.current.stop first.position.offset⟩, d.advance) else (base, d)) := by
  by_cases question : d.current.kind = .mark .question
  · have more : d.rest ≠ [] := Cursor.rest_ne_nil (by simp [question])
    rw [run_bind_of_ok (run_accept_of_eq question), if_pos question, ← Cursor.lastStop_advance more]
    rfl
  · rw [run_bind_of_ok (run_accept_of_ne question), if_neg question]
    rfl

theorem run_typeExpr_zero {name : Token} (named : isTypeName name.kind = true)
    (opens : first.kind = .mark .less) (closes : last.kind = .mark .greater)
    (balanced : Balanced (.mark .less) (.mark .greater) inner)
    (whole : c.rest = name :: first :: (inner ++ last :: behind)) :
    let span (last : Token) : Span := ⟨name.position, max last.stop name.position.offset⟩
    let type := TypeExpr.simple name.text (span last)
    let next := c.pastTooDeep first last behind
    (typeExpr 0).run c = .ok (if next.current.kind = .mark .question
      then (.nullable type (span next.current), next.advance) else (type, next)) := by
  intro span type next
  have taken : c.Takes ([] ++ [name]) (c.moved name _) := Cursor.takes_moved whole
  have skips : (leaveOut (.mark .less) (.mark .greater)).run (c.moved name _) = .ok ((), next) :=
    run_leaveOut (by simp [brackets]) closes balanced rfl
  have here : (c.moved name (first :: (inner ++ last :: behind))).current.kind = .mark .less :=
    opens
  have base : (typeBase none).run c = .ok (type, next) := by
    rw [typeBase_none, run_current_bind, taken.current_eq, if_pos named,
      run_bind_of_ok (run_discard taken.runAdvance), bind_assoc, run_bind_of_ok (run_isAt _ _),
      if_pos (decide_eq_true here), run_bind_of_ok skips]
    rfl
  rw [typeExpr, typeWith, run_current_bind, run_bind_of_ok base, taken.current_eq,
    run_accept_question]

end LeaveOut

end ArchDiagram.Syntax
