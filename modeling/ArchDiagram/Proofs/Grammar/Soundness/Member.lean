import ArchDiagram.Proofs.Reading
import ArchDiagram.Proofs.Grammar

/-!
Where a reader reports nothing, the tokens that it takes are derived by the grammar and stand for
the tree that it gives. There is one statement for each reader of `Syntax.Parser`; it says at the
same time where the reader can come to and at which tokens it can stop.
-/

namespace ArchDiagram.Syntax

open Grammar

/-- The tokens between two cursors stand for a tree, if they come from a source. -/
def Reads {α : Type} (rule : Rule α) (c : Cursor) (a : α) (d : Cursor) : Prop :=
  Orderly c.rest → ∃ tokens, c.Takes tokens d ∧ rule tokens a

theorem Cursor.Takes.orderly {c d : Cursor} {tokens : List Token} (taken : c.Takes tokens d)
    (orderly : Orderly c.rest) : Orderly d.rest :=
  orderly.sublist (taken.reaches.rest_suffix.sublist)

theorem Cursor.Takes.orderly_tokens {c d : Cursor} {tokens : List Token} (taken : c.Takes tokens d)
    (orderly : Orderly c.rest) : Orderly tokens := by
  rw [taken.rest_eq] at orderly
  exact orderly.sublist (List.sublist_append_left _ _)

theorem Cursor.Takes.spans {c d : Cursor} {tokens : List Token} (taken : c.Takes tokens d)
    (orderly : Orderly c.rest) (some_ : tokens ≠ []) :
    Spans tokens ⟨c.current.position, max d.lastStop c.current.position.offset⟩ := by
  cases tokens with
  | nil => exact absurd rfl some_
  | cons first rest =>
    obtain ⟨last, final⟩ : ∃ last, (first :: rest).getLast? = some last :=
      ⟨_, List.getLast?_eq_some_getLast some_⟩
    have forward := (taken.orderly_tokens orderly).start_lt_stop rfl final
    rw [taken.lastStop_eq final, taken.current_eq, Nat.max_eq_left (Nat.le_of_lt forward)]
    exact .mk rfl final

section Shapes

variable {α : Type} {c d : Cursor}

theorem outcome_separator {kind : TokenKind} (real : kind ≠ .endOfInput) :
    Outcome (discard (accept kind)) c fun _ d => ∃ xs, Separator [kind] xs ∧ c.Takes xs d ∧
      (xs = [] → d.current.kind ≠ kind) := by
  refine .mono (.discard (outcome_accept real)) ?_
  rintro - d ⟨-, ⟨-, here, taken⟩ | ⟨-, other, rfl⟩⟩
  · exact ⟨_, .present (by simpa using here), taken, by simp⟩
  · exact ⟨[], .absent, .nil _, fun _ => other⟩

theorem Chain.star {rule : Rule α} {reads : Cursor → α → Cursor → Prop}
    (each : ∀ c a d, reads c a d → Reads rule c a d) {as : List α} (chain : Chain reads c as d) :
    Reads (Star rule) c as d := by
  intro orderly
  induction chain with
  | nil c => exact ⟨[], .nil c, .nil⟩
  | cons first _ ih =>
    obtain ⟨xs, taken, derived⟩ := each _ _ _ first orderly
    obtain ⟨ys, further, rest⟩ := ih (taken.orderly orderly)
    exact ⟨xs ++ ys, taken.append further, .cons derived rest⟩

theorem Chain.somes {reads : Cursor → α → Cursor → Prop} {found : List (Option α)}
    (chain : Chain (fun c a? d => ∃ a, a? = some a ∧ reads c a d) c found d) :
    Chain reads c (found.filterMap id) d := by
  induction chain with
  | nil c => exact .nil c
  | cons first _ ih =>
    obtain ⟨a, rfl, read⟩ := first
    exact .cons read ih

theorem outcome_commaList {item : Reader α} {rule : Rule α}
    (items : ∀ c, Outcome item c (Reads rule c)) :
    Outcome (separatedByCommas item) c (Reads (CommaList rule) c) := by
  refine .mono (outcome_separatedByCommas items c) ?_
  rintro _ d ⟨first, more, m, rfl, read, chain⟩ orderly
  obtain ⟨xs, taken, derived⟩ := read orderly
  have behind : Reads (Star (Behind (.mark .comma) rule)) m more d := by
    refine chain.star ?_
    rintro c a d ⟨comma, m, kind, step, read⟩ orderly
    obtain ⟨xs, taken, derived⟩ := read (step.orderly orderly)
    exact ⟨comma :: xs, step.append taken, .mk kind derived⟩
  obtain ⟨ys, further, rest⟩ := behind (taken.orderly orderly)
  exact ⟨xs ++ ys, taken.append further, .mk derived rest⟩

theorem outcome_expectIdentifier : Outcome expectIdentifier c (Reads Identifier c) := by
  refine .mono (outcome_expectText (by simp)) ?_
  rintro _ d ⟨token, kind, rfl, taken⟩ -
  exact ⟨[token], taken, .mk kind⟩

end Shapes

theorem outcome_importDecl (c : Cursor) : Outcome importDecl c (Reads Import c) := by
  apply Outcome.bind (outcome_expect (by simp))
  intro word c₁
  apply Outcome.bind (outcome_expectText (by simp))
  intro path c₂
  apply Outcome.bind (outcome_separator (by simp))
  intro _ c₃
  apply Outcome.bind (outcome_spanFrom word)
  intro span c₄
  apply Outcome.pure
  rintro ⟨rfl, rfl⟩ ⟨semicolon, derived, last, -⟩ ⟨path, pathKind, rfl, middle⟩
    ⟨rfl, wordKind, first⟩ orderly
  have taken := first.append (middle.append last)
  exact ⟨_, taken, .mk wordKind pathKind derived (taken.spans orderly (by simp))⟩

theorem outcome_modifierRound (c : Cursor) : Outcome modifierRound c fun found d =>
    match found with
    | none => d = c ∧ isModifier c.current.kind = false
    | some word => Reads ModifierWord c word d := by
  refine outcome_current_bind ?_
  split
  · next word here =>
    refine .bind (outcome_take (by simp [here])) fun _ d => .pure fun taken _ => ?_
    exact ⟨_, taken, .mk here⟩
  · next other =>
    refine .pure ⟨rfl, ?_⟩
    unfold isModifier
    split
    · next word here => exact absurd here (other word)
    · rfl

theorem takesToken_modifierRound : TakesToken modifierRound := by
  intro c word d run
  rw [modifierRound, run_current_bind] at run
  split at run
  · next word here =>
    obtain ⟨-, rfl⟩ := Prod.mk.inj (Except.ok.inj run)
    exact Cursor.length_advance_lt (Cursor.rest_ne_nil (by simp [here]))
  · simpa using (Prod.mk.inj (Except.ok.inj run)).1

theorem outcome_modifiers (c : Cursor) : Outcome modifiers c fun words d =>
    Reads (Star ModifierWord) c words d ∧ isModifier d.current.kind = false := by
  refine .mono (outcome_repeatWhile takesToken_modifierRound outcome_modifierRound c) ?_
  rintro words _ ⟨d, chain, rfl, other⟩
  exact ⟨chain.star fun _ _ _ read => read, other⟩

theorem outcome_typeArguments {argument : Reader TypeExpr} {rule : Rule TypeExpr}
    (arguments : ∀ c, Outcome argument c (Reads rule c)) (c : Cursor) :
    Outcome (typeArguments argument) c
      (Reads (Between (.mark .less) (.mark .greater) (CommaList rule)) c) := by
  apply Outcome.bind (.discard (outcome_expect (by simp)))
  intro _ c₁
  apply Outcome.bind (outcome_commaList arguments)
  intro args c₂
  apply Outcome.bind (.discard (outcome_expect (by simp)))
  intro _ c₃
  apply Outcome.pure
  rintro ⟨closing, -, closingKind, last⟩ middle ⟨opening, -, openingKind, first⟩ orderly
  obtain ⟨xs, taken, derived⟩ := middle (first.orderly orderly)
  exact ⟨_, first.append (taken.append last), .mk openingKind derived closingKind⟩

theorem isTypeName_ne_end {kind : TokenKind} (named : isTypeName kind = true) :
    kind ≠ .endOfInput := by
  rintro rfl
  simp [isTypeName] at named

section Types

variable {arguments? : Option (Reader (List TypeExpr))} {rule : Rule (List TypeExpr)}

theorem outcome_typeBase (arguments : ∀ reader ∈ arguments?, ∀ c,
      Outcome reader c (Reads (Between (.mark .less) (.mark .greater) rule) c)) (c : Cursor) :
    Outcome (typeBase arguments?) c (Reads (TypeBase rule) c) := by
  apply outcome_current_bind
  refine .ite (fun named => ?_) fun _ => .bind (outcome_report _) fun _ _ =>
    .bind (outcome_spanFrom _) fun _ _ => .pure fun _ never => never.elim
  apply Outcome.bind (outcome_take (isTypeName_ne_end named))
  intro _ c₁
  apply Outcome.bind outcome_isAt
  intro opens c₂
  refine .ite (fun _ => ?_) fun _ => ?_
  · cases arguments? with
    | some reader =>
      apply Outcome.bind (arguments reader rfl c₂)
      intro args c₃
      apply Outcome.bind (outcome_spanFrom _)
      intro span c₄
      apply Outcome.pure
      rintro ⟨rfl, rfl⟩ read ⟨-, rfl⟩ first orderly
      obtain ⟨xs, taken, derived⟩ := read (first.orderly orderly)
      have whole := first.append taken
      exact ⟨_, whole, .generic (isTypeWord_iff.2 named) derived (whole.spans orderly (by simp))⟩
    | none =>
      -- The mark behind the name is taken and reported before anything else is looked at.
      refine .of_loud (d := c₂.advance.report .nestingTooDeep c₂.current)
        (s := skipNested (.mark .less) (.mark .greater) >>= fun _ =>
          discard (expect (.mark .greater)) >>= fun _ =>
          spanFrom c.current >>= fun span => pure (.simple c.current.text span))
        rfl (.reportTaken _ .refl) ?_ ?_
      · exact Cursor.errors_advance c₂ ▸ errors_report_ne _ _ _
      · exact .bind (outcome_skipNested _ _) fun _ _ =>
          .bind (.discard (outcome_expect (by simp))) fun _ _ =>
          .bind (outcome_spanFrom _) fun _ _ => .pure fun _ _ _ => trivial
  · refine .bind (outcome_spanFrom _) fun span c₃ => .pure ?_
    rintro ⟨rfl, rfl⟩ ⟨-, rfl⟩ first orderly
    exact ⟨_, first, .simple (isTypeWord_iff.2 named) (first.spans orderly (by simp))⟩

theorem outcome_typeWith (arguments : ∀ reader ∈ arguments?, ∀ c,
      Outcome reader c (Reads (Between (.mark .less) (.mark .greater) rule) c)) (c : Cursor) :
    Outcome (typeWith arguments?) c (Reads (TypeWith rule) c) := by
  apply outcome_current_bind
  apply Outcome.bind (outcome_typeBase arguments c)
  intro base c₁
  apply Outcome.bind (outcome_accept (by simp))
  intro marked c₂
  refine .ite (fun yes => ?_) fun no => .pure ?_
  · refine .bind (outcome_spanFrom _) fun span c₃ => .pure ?_
    rintro ⟨rfl, rfl⟩ (⟨-, markKind, last⟩ | ⟨no, -⟩) read orderly
    · obtain ⟨xs, taken, derived⟩ := read orderly
      have whole := taken.append last
      exact ⟨_, whole, .nullable derived markKind (whole.spans orderly (by simp))⟩
    · simp [yes] at no
  · rintro (⟨yes, -⟩ | ⟨-, -, rfl⟩) read orderly
    · exact absurd yes no
    · obtain ⟨xs, taken, derived⟩ := read orderly
      exact ⟨xs, taken, .plain derived⟩

end Types

theorem outcome_typeExpr (levels : Nat) (c : Cursor) :
    Outcome (typeExpr levels) c (Reads (TypeIn levels) c) := by
  induction levels generalizing c with
  | zero => exact outcome_typeWith (by simp) c
  | succ levels ih =>
    refine outcome_typeWith (fun reader member => ?_) c
    obtain rfl := Option.some.inj member
    exact outcome_typeArguments ih

theorem literalOf_of_constant? {token : Token} {value : Constant} {span : Span}
    (found : constant? token.toLexeme = some (.ok value)) (orderly : Orderly [token])
    (spans : Spans [token] span) : LiteralOf [token] ⟨value, span⟩ := by
  unfold constant? at found
  split at found
  · next kind =>
    cases Option.some.inj found
    exact .text kind spans
  · next kind =>
    have numeric := orderly.numeric token (by simp) kind
    exact .number kind (isNumber_of_numberValue numeric (Option.some.inj found)) spans
  · next kind =>
    split_ifs at found with yes no
    · cases Option.some.inj found
      exact .yes kind yes spans
    · cases Option.some.inj found
      exact .no kind no spans
  · simp at found

theorem faulty_of_constant? {token : Token} {fault : Fault}
    (found : constant? token.toLexeme = some (.error fault)) : Faulty token fault := by
  unfold constant? at found
  split at found
  · cases Option.some.inj found
  · next kind => exact .inl ⟨kind, .inl (Option.some.inj found)⟩
  · split_ifs at found
    · cases Option.some.inj found
    · cases Option.some.inj found
  · simp at found

theorem outcome_literal (c : Cursor) : Outcome literal c (Reads LiteralOf c) := by
  refine outcome_current_bind ?_
  split
  · next value found =>
    have real : c.current.kind ≠ .endOfInput := by
      intro ends
      simp [constant?, ends] at found
    cases value with
    -- A number that cannot be read stops the parser.
    | error fault => exact .of_fault rfl .refl (faulty_of_constant? found)
    | ok value =>
      apply Outcome.bind (outcome_take real)
      intro _ c₁
      apply Outcome.bind (outcome_ok value)
      intro a c₂
      apply Outcome.bind (outcome_spanFrom _)
      intro span c₃
      apply Outcome.pure
      rintro ⟨rfl, rfl⟩ ⟨rfl, rfl⟩ taken orderly
      exact ⟨_, taken, literalOf_of_constant? found (taken.orderly_tokens orderly)
        (taken.spans orderly (by simp))⟩
  · exact .bind (outcome_report _) fun _ _ => .bind (outcome_spanFrom _) fun _ _ =>
      .pure fun _ never => never.elim

theorem outcome_visibility (c : Cursor) : Outcome visibility c (Reads Visibility c) := by
  refine outcome_current_bind ?_
  split
  · next mark found =>
    have real : c.current.kind ≠ .endOfInput := by
      intro ends
      simp [visibility?, ends] at found
    exact .bind (outcome_take real) fun _ d => .pure fun taken _ => ⟨_, taken,
      .present (isVisibility_iff.2 found)⟩
  · exact .pure fun _ => ⟨[], .nil c, .absent⟩

theorem outcome_param (levels : Nat) (c : Cursor) :
    Outcome (param levels) c (Reads (Param levels) c) := by
  apply outcome_current_bind
  apply Outcome.bind outcome_expectName
  intro name c₁
  apply Outcome.bind (.discard (outcome_expect (by simp)))
  intro _ c₂
  apply Outcome.bind (outcome_typeExpr levels c₂)
  intro type c₃
  apply Outcome.bind (outcome_spanFrom _)
  intro span c₄
  apply Outcome.pure
  rintro ⟨rfl, rfl⟩ read ⟨colon, -, colonKind, second⟩ ⟨token, nameKind, rfl, first⟩ orderly
  have before := first.append second
  obtain ⟨xs, taken, derived⟩ := read (before.orderly orderly)
  have whole := before.append taken
  exact ⟨_, whole, .mk (isWord_iff.2 nameKind) colonKind derived (whole.spans orderly (by simp))⟩

theorem outcome_defaultValue (c : Cursor) :
    Outcome defaultValue c (Reads (Maybe (Behind (.mark .equals) LiteralOf)) c) := by
  refine .bind (outcome_accept (by simp)) fun found c₁ => .ite (fun yes => ?_) fun no => .pure ?_
  · refine .bind (outcome_literal c₁) fun value c₂ => .pure ?_
    rintro read (⟨-, here, first⟩ | ⟨no, -⟩) orderly
    · obtain ⟨xs, taken, derived⟩ := read (first.orderly orderly)
      exact ⟨_, first.append taken, .present (.mk here derived)⟩
    · simp [yes] at no
  · rintro (⟨yes, -⟩ | ⟨-, -, rfl⟩) -
    · exact absurd yes no
    · exact ⟨[], .nil _, .absent⟩

theorem outcome_params (levels : Nat) (c : Cursor) :
    Outcome (params levels) c (Reads (MaybeSome (CommaList (Param levels))) c) := by
  refine .bind outcome_isAt fun found c₁ => .ite (fun _ => .pure ?_) fun _ => ?_
  · rintro ⟨-, rfl⟩ -
    exact ⟨[], .nil _, .absent⟩
  · refine .mono (outcome_commaList (outcome_param levels)) ?_
    rintro list d read ⟨-, rfl⟩ orderly
    obtain ⟨xs, taken, derived⟩ := read orderly
    exact ⟨xs, taken, .present derived⟩

/-- A field or method has the semicolon directly behind it, if there is one. -/
def Attached (member : Member) (tokens : List Token) (d : Cursor) : Prop :=
  match member with
  | .value _ => True
  | .field _ | .method _ =>
    (∃ last, tokens.getLast? = some last ∧ last.kind = .mark .semicolon) ∨
    d.current.kind ≠ .mark .semicolon

theorem attached_of_separator {semicolon : List Token} {d : Cursor} (before : List Token)
    (derived : Separator [.mark .semicolon] semicolon)
    (next : semicolon = [] → d.current.kind ≠ .mark .semicolon) :
    (∃ last, (before ++ semicolon).getLast? = some last ∧ last.kind = .mark .semicolon) ∨
      d.current.kind ≠ .mark .semicolon := by
  cases derived with
  | absent => exact .inr (next rfl)
  | present kind => exact .inl ⟨_, List.getLast?_concat, by simpa using kind⟩

section Rest

variable {levels : Nat} {first : Token} {visibility : VisibilityMark} {modifiers : List Modifier}
  {name : String}

theorem outcome_fieldRest (c : Cursor) :
    Outcome (fieldRest levels first visibility modifiers name) c fun decl d => Orderly c.rest →
      ∃ colon xs assigned semicolon type value, colon.kind = .mark .colon ∧
        TypeIn levels xs type ∧ Maybe (Behind (.mark .equals) LiteralOf) assigned value ∧
        Separator [.mark .semicolon] semicolon ∧
        (semicolon = [] → d.current.kind ≠ .mark .semicolon) ∧
        c.Takes (colon :: (xs ++ (assigned ++ semicolon))) d ∧
        decl = ⟨visibility, modifiers, name, type, value,
          ⟨first.position, max d.lastStop first.position.offset⟩⟩ := by
  apply Outcome.bind (.discard (outcome_expect (by simp)))
  intro _ c₁
  apply Outcome.bind (outcome_typeExpr levels c₁)
  intro type c₂
  apply Outcome.bind (outcome_defaultValue c₂)
  intro value c₃
  apply Outcome.bind (outcome_separator (by simp))
  intro _ c₄
  apply Outcome.bind (outcome_spanFrom _)
  intro span c₅
  apply Outcome.pure
  rintro ⟨rfl, rfl⟩ ⟨semicolon, separated, last, next⟩ valueRead typeRead
    ⟨colon, -, colonKind, step⟩ orderly
  obtain ⟨xs, typeTaken, typed⟩ := typeRead (step.orderly orderly)
  have before := step.append typeTaken
  obtain ⟨assigned, valueTaken, valued⟩ := valueRead (before.orderly orderly)
  exact ⟨colon, xs, assigned, semicolon, type, value, colonKind, typed, valued, separated, next,
    step.append (typeTaken.append (valueTaken.append last)), rfl⟩

theorem outcome_methodRest (c : Cursor) :
    Outcome (methodRest levels first visibility modifiers name) c fun decl d => Orderly c.rest →
      ∃ list colon xs semicolon params type,
        Between (.mark .leftParen) (.mark .rightParen) (MaybeSome (CommaList (Param levels)))
          list params ∧ colon.kind = .mark .colon ∧ TypeIn levels xs type ∧
        Separator [.mark .semicolon] semicolon ∧
        (semicolon = [] → d.current.kind ≠ .mark .semicolon) ∧
        c.Takes (list ++ colon :: (xs ++ semicolon)) d ∧
        decl = ⟨visibility, modifiers, name, params, type,
          ⟨first.position, max d.lastStop first.position.offset⟩⟩ := by
  apply Outcome.bind (.discard (outcome_expect (by simp)))
  intro _ c₁
  apply Outcome.bind (outcome_params levels c₁)
  intro params c₂
  apply Outcome.bind (.discard (outcome_expect (by simp)))
  intro _ c₃
  apply Outcome.bind (.discard (outcome_expect (by simp)))
  intro _ c₄
  apply Outcome.bind (outcome_typeExpr levels c₄)
  intro type c₅
  apply Outcome.bind (outcome_separator (by simp))
  intro _ c₆
  apply Outcome.bind (outcome_spanFrom _)
  intro span c₇
  apply Outcome.pure
  rintro ⟨rfl, rfl⟩ ⟨semicolon, separated, last, next⟩ typeRead ⟨colon, -, colonKind, colonTaken⟩
    ⟨closing, -, closingKind, closingTaken⟩ paramsRead ⟨opening, -, openingKind, step⟩ orderly
  obtain ⟨ys, paramsTaken, listed⟩ := paramsRead (step.orderly orderly)
  have list := step.append (paramsTaken.append closingTaken)
  have before := list.append colonTaken
  obtain ⟨xs, typeTaken, typed⟩ := typeRead (before.orderly orderly)
  exact ⟨_, colon, xs, semicolon, params, type, .mk openingKind listed closingKind, colonKind, typed,
    separated, next, list.append (colonTaken.append (typeTaken.append last)), rfl⟩

end Rest

theorem Reads.header {c c₁ c₂ c₃ : Cursor} {mark : VisibilityMark} {words : List Modifier}
    {token : Token} (read : Reads Visibility c mark c₁)
    (wordsRead : Reads (Star ModifierWord) c₁ words c₂ ∧ isModifier c₂.current.kind = false)
    (nameKind : token.kind.isName = true) (nameTaken : c₂.Takes [token] c₃)
    (orderly : Orderly c.rest) :
    ∃ vis mods, Visibility vis mark ∧ Star ModifierWord mods words ∧ IsMemberName token ∧
      c.Takes (vis ++ (mods ++ [token])) c₃ ∧ token.text ≠ "" := by
  obtain ⟨vis, markTaken, marked⟩ := read orderly
  obtain ⟨mods, wordsTaken, modified⟩ := wordsRead.1 (markTaken.orderly orderly)
  have other := wordsRead.2
  rw [nameTaken.current_eq] at other
  have shown := ((markTaken.append wordsTaken).orderly orderly).named token
    (by simp [nameTaken.rest_eq]) nameKind
  exact ⟨vis, mods, marked, modified, ⟨isWord_iff.2 nameKind, isModifier_eq_false_iff.1 other⟩,
    markTaken.append (wordsTaken.append nameTaken), shown⟩

theorem outcome_fieldOrMethod (levels : Nat) (kind : EntityKind) (c : Cursor) :
    Outcome (fieldOrMethod levels kind) c fun found d => Orderly c.rest → ∃ member tokens,
      found = some member ∧ c.Takes tokens d ∧ MemberOf levels kind tokens member ∧
      Attached member tokens d := by
  apply outcome_current_bind
  refine .ite (fun _ => ?_) fun _ =>
    .bind (outcome_skipUnexpected _) fun _ _ => .pure fun never => never.elim
  apply Outcome.bind (outcome_visibility c)
  intro mark c₁
  apply Outcome.bind (outcome_modifiers c₁)
  intro words c₂
  apply Outcome.bind outcome_expectName
  intro name c₃
  refine .ite (fun empty => .pure ?_) fun _ => ?_
  · rintro ⟨token, nameKind, rfl, nameTaken⟩ wordsRead markRead orderly
    -- No token of a source has an empty name, so a missing name was reported.
    obtain ⟨vis, mods, -, -, -, -, shown⟩ := markRead.header wordsRead nameKind nameTaken orderly
    exact absurd empty shown
  apply Outcome.bind outcome_isAt
  intro opens c₄
  refine .ite (fun _ => ?_) fun _ => ?_
  · refine .bind (outcome_methodRest c₄) fun decl c₅ => .pure ?_
    rintro read ⟨-, rfl⟩ ⟨token, nameKind, rfl, nameTaken⟩ wordsRead markRead orderly
    obtain ⟨vis, mods, marked, modified, named, before, -⟩ :=
      markRead.header wordsRead nameKind nameTaken orderly
    obtain ⟨list, colon, xs, semicolon, params, type, listed, colonKind, typed, separated, next,
      taken, rfl⟩ := read (before.orderly orderly)
    have whole := before.append taken
    refine ⟨_, _, rfl, whole, .method (.mk marked modified named listed colonKind typed separated
      (by simp) (whole.spans orderly (by simp))), ?_⟩
    have attached := attached_of_separator (vis ++ (mods ++ token :: (list ++ colon :: xs)))
      separated next
    simpa [Attached] using attached
  · refine .bind (outcome_fieldRest c₄) fun decl c₅ => .pure ?_
    rintro read ⟨-, rfl⟩ ⟨token, nameKind, rfl, nameTaken⟩ wordsRead markRead orderly
    obtain ⟨vis, mods, marked, modified, named, before, -⟩ :=
      markRead.header wordsRead nameKind nameTaken orderly
    obtain ⟨colon, xs, assigned, semicolon, type, value, colonKind, typed, valued, separated, next,
      taken, rfl⟩ := read (before.orderly orderly)
    have whole := before.append taken
    refine ⟨_, _, rfl, whole, .field (.mk marked modified named colonKind typed valued separated
      (by simp) (whole.spans orderly (by simp))), ?_⟩
    have attached := attached_of_separator (vis ++ (mods ++ token :: colon :: (xs ++ assigned)))
      separated next
    simpa [Attached] using attached

/-- What a clean round of the members gives: a separator that it leaves out, or a member. -/
def ReadsMember (levels : Nat) (kind : EntityKind) (c : Cursor) (found : Option Member)
    (d : Cursor) : Prop :=
  Orderly c.rest → match found with
    | none => ∃ token, token.kind ∈ memberSeparators kind ∧ c.Takes [token] d
    | some member => ∃ tokens, c.Takes tokens d ∧ MemberOf levels kind tokens member ∧
      Attached member tokens d

theorem readsMember_of_some {levels : Nat} {kind : EntityKind} {c d : Cursor}
    {found : Option Member}
    (read : Orderly c.rest → ∃ member tokens, found = some member ∧ c.Takes tokens d ∧
      MemberOf levels kind tokens member ∧ Attached member tokens d) :
    ReadsMember levels kind c found d := by
  intro orderly
  obtain ⟨member, tokens, rfl, taken, derived, attached⟩ := read orderly
  exact ⟨tokens, taken, derived, attached⟩

theorem outcome_enumerationMember (levels : Nat) (c : Cursor) :
    Outcome (enumerationMember levels) c (ReadsMember levels .enumeration c) := by
  apply Outcome.bind (outcome_accept (by simp))
  intro found c₁
  refine .ite (fun yes => .pure ?_) fun no => outcome_get_bind ?_
  · rintro (⟨-, here, taken⟩ | ⟨no, -⟩) orderly
    · exact ⟨_, by simp [memberSeparators, here], taken⟩
    · simp [yes] at no
  refine .ite (fun named => ?_) fun _ => ?_
  · simp only [isAtValue, Bool.and_eq_true, Bool.not_eq_eq_eq_not, Bool.not_true] at named
    have real : c₁.current.kind ≠ .endOfInput := by
      intro ends
      simp [ends, TokenKind.isName] at named
    have value : Outcome valueDecl c₁ fun decl d => c₁.Takes [c₁.current] d ∧
        decl = ⟨c₁.current.text,
          ⟨c₁.current.position, max d.lastStop c₁.current.position.offset⟩⟩ := by
      apply Outcome.bind outcome_advance
      intro token c₂
      apply Outcome.bind (outcome_spanFrom _)
      intro span c₃
      apply Outcome.pure
      rintro ⟨rfl, rfl⟩ ⟨rfl, rfl⟩
      exact ⟨Cursor.takes_current (Cursor.rest_ne_nil real), rfl⟩
    refine .bind value fun decl d => .pure ?_
    rintro ⟨taken, rfl⟩ (⟨yes, -⟩ | ⟨-, -, rfl⟩) orderly
    · exact absurd yes no
    · have spans := taken.spans orderly (by simp)
      -- The name was looked at before it was taken: it is a word and no modifier.
      have name : IsMemberName c₁.current :=
        ⟨isWord_iff.2 named.1.1.1, isModifier_eq_false_iff.1 named.1.1.2⟩
      exact ⟨_, taken, .value rfl name spans, trivial⟩
  · refine .mono (outcome_fieldOrMethod levels _ c₁) ?_
    rintro found d read (⟨yes, -⟩ | ⟨-, -, rfl⟩)
    · exact absurd yes no
    · exact readsMember_of_some read

theorem outcome_member (levels : Nat) (kind : EntityKind) (c : Cursor) :
    Outcome (member levels kind) c (ReadsMember levels kind c) := by
  apply Outcome.bind (outcome_accept (by simp))
  intro found c₁
  refine .ite (fun yes => .pure ?_) fun no => .ite (fun enumeration => ?_) fun _ => ?_
  · rintro (⟨-, here, taken⟩ | ⟨no, -⟩) orderly
    · refine ⟨_, ?_, taken⟩
      unfold memberSeparators
      split <;> simp [here]
    · simp [yes] at no
  · subst enumeration
    refine .mono (outcome_enumerationMember levels c₁) ?_
    rintro found d read (⟨yes, -⟩ | ⟨-, -, rfl⟩)
    · exact absurd yes no
    · exact read
  · refine .mono (outcome_fieldOrMethod levels kind c₁) ?_
    rintro found d read (⟨yes, -⟩ | ⟨-, -, rfl⟩)
    · exact absurd yes no
    · exact readsMember_of_some read

theorem Chain.members {levels : Nat} {kind : EntityKind} {c d : Cursor}
    {found : List (Option Member)} (greedy : Bool) (chain : Chain (ReadsMember levels kind) c found d) :
    Reads (Members greedy levels kind) c (found.filterMap id) d := by
  intro orderly
  induction chain with
  | nil c => exact ⟨[], .nil c, .nil⟩
  | @cons c m d found rest first _ ih =>
    have read := first orderly
    cases found with
    | none =>
      obtain ⟨token, kind, taken⟩ := read
      obtain ⟨ys, further, derived⟩ := ih (taken.orderly orderly)
      exact ⟨token :: ys, taken.append further, .separator kind derived⟩
    | some member =>
      obtain ⟨xs, taken, derived, attached⟩ := read
      obtain ⟨ys, further, others⟩ := ih (taken.orderly orderly)
      refine ⟨xs ++ ys, taken.append further, .member derived others fun _ => ?_⟩
      -- The token behind a member is the first one of the next member, if there is one.
      have next (token : Token) (front : ys.head? = some token) : m.current = token := by
        obtain ⟨tail, rfl⟩ := List.head?_eq_some_iff.mp front
        exact further.current_eq
      cases member with
      | value decl => trivial
      | field decl => exact attached.imp_right fun other token front => next token front ▸ other
      | method decl => exact attached.imp_right fun other token front => next token front ▸ other

theorem outcome_members (levels : Nat) (kind : EntityKind) (greedy : Bool) (c : Cursor) :
    Outcome (members levels kind) c
      (Reads (MaybeSome (Between (.mark .leftBrace) (.mark .rightBrace)
        (Members greedy levels kind))) c) := by
  refine .bind (outcome_accept (by simp)) fun found c₁ => .ite (fun yes => ?_) fun no => .pure ?_
  · apply Outcome.bind (outcome_many (outcome_member levels kind) c₁)
    intro members c₂
    apply Outcome.bind (.discard (outcome_expect (by simp)))
    intro _ c₃
    apply Outcome.pure
    rintro ⟨closing, -, closingKind, last⟩ ⟨found, chain, rfl⟩ accepted orderly
    obtain ⟨-, here, first⟩ | ⟨no, -⟩ := accepted
    · obtain ⟨xs, taken, derived⟩ := chain.members greedy (first.orderly orderly)
      exact ⟨_, first.append (taken.append last), .present (.mk here derived closingKind)⟩
    · simp [yes] at no
  · rintro (⟨yes, -⟩ | ⟨-, -, rfl⟩) -
    · exact absurd yes no
    · exact ⟨[], .nil _, .absent⟩

end ArchDiagram.Syntax
