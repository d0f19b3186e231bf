import ArchDiagram.Proofs.Reading

/-!
What a reader gives, whether or not it reports something. `Outcome` tells what a quiet run gives; a
run that is not quiet gives a tree too, and what all trees of a reader have in common is told here.
-/

namespace ArchDiagram.Syntax

/-- Where all tokens that are left are known, a run that ends gives what is stated, and the tokens
that it leaves are known. -/
def Yields {α : Type} (known : Token → Prop) (r : Reader α) (given : α → Prop) : Prop :=
  ∀ ⦃c d : Cursor⦄ ⦃a : α⦄, (∀ token ∈ c.rest, known token) → r.run c = .ok (a, d) →
    given a ∧ ∀ token ∈ d.rest, known token

namespace Yields

variable {α β : Type} {known : Token → Prop} {r : Reader α}

protected theorem pure {given : α → Prop} {a : α} (holds : given a) :
    Yields known (pure a) given := by
  intro c d b tokens run
  obtain ⟨rfl, rfl⟩ := Prod.mk.inj (Except.ok.inj run)
  exact ⟨holds, tokens⟩

protected theorem bind {f : α → Reader β} {middle : α → Prop} {given : β → Prop}
    (first : Yields known r middle) (next : ∀ a, middle a → Yields known (f a) given) :
    Yields known (r >>= f) given := by
  intro c d b tokens run
  obtain ⟨a, m, found, rest⟩ := run_of_bind run
  obtain ⟨holds, left⟩ := first tokens found
  exact next a holds left rest

protected theorem ite {p : Prop} [Decidable p] {s : Reader α} {given : α → Prop}
    (yes : p → Yields known r given) (no : ¬ p → Yields known s given) :
    Yields known (if p then r else s) given := by
  by_cases holds : p
  · simpa only [if_pos holds] using yes holds
  · simpa only [if_neg holds] using no holds

theorem mono {strong weak : α → Prop} (yields : Yields known r strong)
    (implies : ∀ a, strong a → weak a) : Yields known r weak := by
  intro c d a tokens run
  obtain ⟨holds, left⟩ := yields tokens run
  exact ⟨implies a holds, left⟩

theorem of_outcome {clean : Cursor → α → Cursor → Prop} (out : ∀ c, Outcome r c (clean c)) :
    Yields known r fun _ => True := by
  intro c d a tokens run
  have left := ((out c).reaches run).rest_suffix
  exact ⟨trivial, fun token member => tokens token (left.subset member)⟩

theorem discard {given : α → Prop} (yields : Yields known r given) :
    Yields known (discard r) fun _ => True :=
  Yields.bind (f := fun _ => Pure.pure ()) yields fun _ _ => .pure trivial

end Yields

section Tokens

variable {known : Token → Prop} {kind : TokenKind}

theorem known_current {c : Cursor} (tokens : ∀ token ∈ c.rest, known token)
    (real : c.current.kind ≠ .endOfInput) : known c.current := by
  apply tokens
  rw [Cursor.rest_eq_cons (Cursor.rest_ne_nil real)]
  exact List.mem_cons_self

theorem yields_current :
    Yields known current fun token => token.kind ≠ .endOfInput → known token := by
  intro c d token tokens run
  obtain ⟨rfl, rfl⟩ := Prod.mk.inj (Except.ok.inj run)
  exact ⟨known_current tokens, tokens⟩

theorem yields_get_bind {α : Type} {f : Cursor → Reader α} {given : α → Prop}
    (next : ∀ c, Yields known (f c) given) : Yields known (get >>= f) given :=
  fun c _ _ tokens run => next c tokens run

theorem yields_advance : Yields known advance fun _ => True :=
  .of_outcome fun _ => outcome_advance

theorem yields_report (cause : SyntaxError.Cause) (token : Token) :
    Yields known (report cause token) fun _ => True := by
  intro c d _ tokens run
  obtain ⟨-, rfl⟩ := Prod.mk.inj (Except.ok.inj run)
  exact ⟨trivial, tokens⟩

theorem yields_isAt : Yields known (isAt kind) fun _ => True := .of_outcome fun _ => outcome_isAt

theorem yields_accept (real : kind ≠ .endOfInput) : Yields known (accept kind) fun _ => True :=
  .of_outcome fun _ => outcome_accept real

theorem yields_expect (real : kind ≠ .endOfInput) : Yields known (expect kind) fun _ => True :=
  .of_outcome fun _ => outcome_expect real

theorem yields_expectText (real : kind ≠ .endOfInput) :
    Yields known (expectText kind) fun _ => True := .of_outcome fun _ => outcome_expectText real

theorem yields_spanFrom (first : Token) : Yields known (spanFrom first) fun _ => True :=
  .of_outcome fun _ => outcome_spanFrom first

theorem yields_skipUnexpected (region : Region) :
    Yields known (skipUnexpected region) fun _ => True :=
  .of_outcome fun _ => outcome_skipUnexpected region

theorem yields_skipNested (opening closing : TokenKind) :
    Yields known (skipNested opening closing) fun _ => True :=
  .of_outcome fun _ => outcome_skipNested opening closing

theorem Yields.spanned {α : Type} {first : Token} {f : Span → α} {given : α → Prop}
    (holds : ∀ span, given (f span)) :
    Yields known (spanFrom first >>= fun span => pure (f span)) given :=
  .bind (yields_spanFrom first) fun span _ => .pure (holds span)

end Tokens

section Repetition

variable {α : Type} {known : Token → Prop} {given : α → Prop}

theorem Yields.repeatWhile {round : Reader (Option α)}
    (rounds : Yields known round fun found => ∀ a ∈ found, given a) :
    Yields known (repeatWhile round) fun as => ∀ a ∈ as, given a := by
  intro c d as tokens run
  have loop := rounds_of_repeatWhile run
  clear run
  induction loop with
  | stop last => exact ⟨by simp, (rounds tokens last).2⟩
  | stuck last =>
    obtain ⟨holds, left⟩ := rounds tokens last
    exact ⟨by simpa using holds, left⟩
  | next first _ ih =>
    obtain ⟨holds, left⟩ := rounds tokens first
    obtain ⟨rest, left⟩ := ih left
    exact ⟨List.forall_mem_cons.2 ⟨holds _ rfl, rest⟩, left⟩

theorem Yields.commaRound {item : Reader α} (items : Yields known item given) :
    Yields known (commaRound item) fun found => ∀ a ∈ found, given a :=
  .bind (yields_accept (by simp)) fun _ _ => .ite
    (fun _ => .bind items fun _ holds => .pure (by simpa using holds))
    (fun _ => .pure (by simp))

theorem Yields.separatedByCommas {item : Reader α} (items : Yields known item given) :
    Yields known (separatedByCommas item) fun as => as ≠ [] ∧ ∀ a ∈ as, given a :=
  .bind items fun _ first => .bind items.commaRound.repeatWhile fun _ more =>
    .pure ⟨List.cons_ne_nil _ _, List.forall_mem_cons.2 ⟨first, more⟩⟩

theorem Yields.manyRound {closing : TokenKind} {region : Region} {item : Reader (Option α)}
    (items : Yields known item fun found => ∀ a ∈ found, given a) :
    Yields known (manyRound closing region item) fun found =>
      ∀ a? ∈ found, ∀ a ∈ a?, given a := by
  intro c d found tokens run
  by_cases ends : c.rest = [] ∨ c.current.kind = closing
  · rw [run_manyRound_of_end ends] at run
    obtain ⟨rfl, rfl⟩ := Prod.mk.inj (Except.ok.inj run)
    exact ⟨by simp, tokens⟩
  · rw [run_manyRound_of_item ends] at run
    have whole : Yields known (item >>= fun found => get >>= fun now =>
        if now.rest.length = c.rest.length then skipUnexpected region >>= fun _ => pure (some found)
        else pure (some found)) fun found => ∀ a? ∈ found, ∀ a ∈ a?, given a := by
      refine .bind items fun found holds => ?_
      have done : ∀ a? ∈ some found, ∀ a ∈ a?, given a := by simpa using holds
      exact yields_get_bind fun _ => .ite
        (fun _ => .bind (yields_skipUnexpected region) fun _ _ => .pure done) (fun _ => .pure done)
    exact whole tokens run

theorem Yields.many {closing : TokenKind} {region : Region} {item : Reader (Option α)}
    (items : Yields known item fun found => ∀ a ∈ found, given a) :
    Yields known (many closing region item) fun as => ∀ a ∈ as, given a := by
  refine .bind items.manyRound.repeatWhile fun found holds => .pure fun a member => ?_
  obtain ⟨a?, inside, shown⟩ := List.mem_filterMap.1 member
  exact holds a? inside a shown

end Repetition

end ArchDiagram.Syntax
