import ArchDiagram.Proofs.Grammar.Soundness.Member

/-!
Entities, relations, annotations, packages and whole programs that are read without a report are
derived by the grammar.
-/

namespace ArchDiagram.Syntax

open Grammar

theorem outcome_entityKind (c : Cursor) : Outcome entityKind c fun kind d =>
    c.current.kind = .keyword (.entity kind) ∧ c.Takes [c.current] d := by
  refine outcome_current_bind ?_
  split
  · next kind here =>
    exact .bind (outcome_take (by simp [here])) fun _ d => .pure fun taken => ⟨here, taken⟩
  · exact .bind (outcome_report _) fun _ _ => .pure fun never => never.elim

theorem outcome_stereotypeClose (c : Cursor) : Outcome stereotypeClose c fun _ d =>
    ∃ first second, first.kind = .mark .greater ∧ second.kind = .mark .greater ∧
      second.position.offset = first.stop ∧ c.Takes [first, second] d := by
  refine outcome_get_bind <| .ite (fun close => ?_) fun _ =>
    .bind (outcome_report _) fun _ _ =>
      .mono (.discard (outcome_accept (by simp))) fun _ _ _ never => never.elim
  obtain ⟨firstKind, secondKind, touching⟩ := close
  refine .of_run (d := c.advance.advance) (a := ()) rfl (.advance (.advance .refl)) fun _ => ?_
  have first := Cursor.takes_current (c := c) (Cursor.rest_ne_nil (by simp [firstKind]))
  rw [Cursor.ahead_of_kind (by simp [firstKind])] at secondKind touching
  have second := Cursor.takes_current (c := c.advance) (Cursor.rest_ne_nil (by simp [secondKind]))
  exact ⟨_, _, firstKind, secondKind, touching, first.append second⟩

theorem outcome_stereotype (c : Cursor) :
    Outcome stereotype c (Reads (Maybe Stereotype) c) := by
  refine .bind (outcome_accept (by simp)) fun found c₁ => .ite (fun yes => ?_) fun no => .pure ?_
  · apply Outcome.bind (outcome_expectText (by simp))
    intro name c₂
    apply Outcome.bind (outcome_stereotypeClose c₂)
    intro _ c₃
    apply Outcome.pure
    rintro ⟨first, second, firstKind, secondKind, touching, close⟩ ⟨token, nameKind, rfl, taken⟩
      (⟨-, here, opening⟩ | ⟨no, -⟩) -
    · exact ⟨_, opening.append (taken.append close),
        .present (.mk here nameKind firstKind secondKind touching)⟩
    · simp [yes] at no
  · rintro (⟨yes, -⟩ | ⟨-, -, rfl⟩) -
    · exact absurd yes no
    · exact ⟨[], .nil _, .absent⟩

theorem outcome_namesBehind (word : Keyword) (c : Cursor) : Outcome (namesBehind word) c
    (Reads (MaybeSome (Behind (.keyword word) (CommaList Identifier))) c) := by
  refine .bind (outcome_accept (by simp)) fun found c₁ => .ite (fun yes => ?_) fun no => .pure ?_
  · refine .bind (outcome_commaList fun _ => outcome_expectIdentifier) fun names c₂ => .pure ?_
    rintro read (⟨-, here, first⟩ | ⟨no, -⟩) orderly
    · obtain ⟨xs, taken, derived⟩ := read (first.orderly orderly)
      have own := taken.orderly_tokens (first.orderly orderly)
      have all : names.filter (· ≠ "") = names :=
        List.filter_eq_self.mpr fun name member => by
          simpa using ne_empty_of_identifiers derived own name member
      rw [all]
      exact ⟨_, first.append taken, .present (.mk here derived)⟩
    · simp [yes] at no
  · rintro (⟨yes, -⟩ | ⟨-, -, rfl⟩) -
    · exact absurd yes no
    · exact ⟨[], .nil _, .absent⟩

theorem outcome_entity (levels : Nat) (greedy : Bool) (c : Cursor) :
    Outcome (entity levels) c (Reads (Entity greedy levels) c) := by
  apply outcome_current_bind
  apply Outcome.bind (outcome_modifiers c)
  intro words c₁
  apply Outcome.bind (outcome_entityKind c₁)
  intro kind c₂
  apply Outcome.bind (outcome_expectText (by simp))
  intro name c₃
  apply Outcome.bind (outcome_stereotype c₃)
  intro stereotype c₄
  apply Outcome.bind (outcome_namesBehind .extendsWord c₄)
  intro extendsNames c₅
  apply Outcome.bind (outcome_namesBehind .implementsWord c₅)
  intro implementsNames c₆
  apply Outcome.bind (outcome_members levels kind greedy c₆)
  intro members c₇
  apply Outcome.bind (outcome_spanFrom _)
  intro span c₈
  apply Outcome.pure
  rintro ⟨rfl, rfl⟩ membersRead implementsRead extendsRead stereotypeRead
    ⟨token, nameKind, rfl, nameTaken⟩ ⟨here, kindTaken⟩ ⟨wordsRead, -⟩ orderly
  obtain ⟨mods, modsTaken, modified⟩ := wordsRead orderly
  -- From here on the parts are put behind each other, in the order in which they were read.
  have head := modsTaken.append (kindTaken.append nameTaken)
  obtain ⟨stereo, stereoTaken, stereoDerived⟩ := stereotypeRead (head.orderly orderly)
  obtain ⟨extended, extendsTaken, extendsDerived⟩ :=
    extendsRead ((head.append stereoTaken).orderly orderly)
  obtain ⟨implemented, implementsTaken, implementsDerived⟩ :=
    implementsRead ((head.append (stereoTaken.append extendsTaken)).orderly orderly)
  obtain ⟨body, bodyTaken, bodyDerived⟩ := membersRead
    ((head.append (stereoTaken.append (extendsTaken.append implementsTaken))).orderly orderly)
  have whole := modsTaken.append (kindTaken.append (nameTaken.append
    (stereoTaken.append (extendsTaken.append (implementsTaken.append bodyTaken)))))
  exact ⟨_, whole, .mk modified here nameKind stereoDerived extendsDerived implementsDerived
    bodyDerived rfl (whole.spans orderly (by simp))⟩

def ReadsValue (kinds : List TokenKind) (c : Cursor) (text : String) (d : Cursor) : Prop :=
  ∃ token, token.kind ∈ kinds ∧ text = token.text ∧ c.Takes [token] d

theorem outcome_valueOr {kind : TokenKind} {kinds : List TokenKind} {other : Reader String}
    (real : kind ≠ .endOfInput) (others : ∀ c, Outcome other c (ReadsValue kinds c)) (c : Cursor) :
    Outcome (do if ← isAt kind then return (← advance).text else other) c
      (ReadsValue (kind :: kinds) c) := by
  refine .bind outcome_isAt fun found c₁ => .ite (fun yes => ?_) fun _ => ?_
  · refine .bind outcome_advance fun token c₂ => .pure ?_
    rintro ⟨rfl, rfl⟩ ⟨here, rfl⟩
    have kinds := here.1 yes
    exact ⟨_, by simp [kinds], rfl, Cursor.takes_current (Cursor.rest_ne_nil (kinds ▸ real))⟩
  · refine .mono (others c₁) ?_
    rintro text d ⟨token, member, rfl, taken⟩ ⟨-, rfl⟩
    exact ⟨token, List.mem_cons_of_mem _ member, rfl, taken⟩

theorem outcome_attributeValue (c : Cursor) :
    Outcome attributeValue c (ReadsValue [.color, .string] c) := by
  refine outcome_valueOr (by simp) (fun c => .mono (outcome_expectText (by simp)) ?_) c
  rintro text d ⟨token, kind, rfl, taken⟩
  exact ⟨token, by simp [kind], rfl, taken⟩

theorem outcome_styleValue (c : Cursor) :
    Outcome styleValue c (ReadsValue [.number, .color, .string] c) :=
  outcome_valueOr (by simp) outcome_attributeValue c

section Settings

variable {value : Reader String} {values separators : List TokenKind} {closing : TokenKind}
  {region : Region}

theorem outcome_setting (real : .endOfInput ∉ separators)
    (readsValue : ∀ c, Outcome value c (ReadsValue values c)) (c : Cursor) :
    Outcome (setting value separators) c fun found d => ∃ write, found = some write ∧
      Reads (Setting values separators) c write d := by
  apply Outcome.bind outcome_expectName
  intro key c₁
  apply Outcome.bind (.discard (outcome_expect (by simp)))
  intro _ c₂
  apply Outcome.bind (readsValue c₂)
  intro text c₃
  apply outcome_current_bind
  refine .ite (fun here => ?_) fun _ => .pure ?_
  · refine .bind (outcome_take fun ends => real (ends ▸ here)) fun _ c₄ => .pure ?_
    rintro last ⟨token, valueKind, rfl, third⟩ ⟨equals, -, equalsKind, second⟩
      ⟨name, nameKind, rfl, first⟩
    exact ⟨_, rfl, fun _ => ⟨_, first.append (second.append (third.append last)),
      .mk (isWord_iff.2 nameKind) equalsKind valueKind (.present here)⟩⟩
  · rintro ⟨token, valueKind, rfl, third⟩ ⟨equals, -, equalsKind, second⟩
      ⟨name, nameKind, rfl, first⟩
    exact ⟨_, rfl, fun _ => ⟨_, first.append (second.append third),
      .mk (isWord_iff.2 nameKind) equalsKind valueKind .absent⟩⟩

theorem outcome_settings (real : .endOfInput ∉ separators)
    (readsValue : ∀ c, Outcome value c (ReadsValue values c)) (c : Cursor) :
    Outcome (many closing region (setting value separators)) c
      (Reads (Star (Setting values separators)) c) := by
  refine .mono (outcome_many (outcome_setting real readsValue) c) ?_
  rintro _ d ⟨found, chain, rfl⟩
  exact chain.somes.star fun _ _ _ read => read

end Settings

theorem outcome_attributes (c : Cursor) : Outcome attributes c
    (Reads (MaybeSome (Between (.mark .leftBracket) (.mark .rightBracket)
      (Star (Setting [.color, .string] [.mark .comma])))) c) := by
  refine .bind (outcome_accept (by simp)) fun found c₁ => .ite (fun yes => ?_) fun no => .pure ?_
  · apply Outcome.bind (outcome_settings (by simp) outcome_attributeValue c₁)
    intro writes c₂
    apply Outcome.bind (.discard (outcome_expect (by simp)))
    intro _ c₃
    apply Outcome.pure
    rintro ⟨closing, -, closingKind, last⟩ read (⟨-, here, first⟩ | ⟨no, -⟩) orderly
    · obtain ⟨xs, taken, derived⟩ := read (first.orderly orderly)
      exact ⟨_, first.append (taken.append last), .present (.mk here derived closingKind)⟩
    · simp [yes] at no
  · rintro (⟨yes, -⟩ | ⟨-, -, rfl⟩) -
    · exact absurd yes no
    · exact ⟨[], .nil _, .absent⟩

theorem outcome_relation {c : Cursor} (named : c.current.kind = .identifier)
    (operator : c.ahead.kind.isRelation = true) :
    Outcome relation c (Reads Relation c) := by
  have real : c.rest ≠ [] := Cursor.rest_ne_nil (by simp [named])
  rw [Cursor.ahead_of_kind (by simp [named])] at operator
  have more : c.advance.rest ≠ [] :=
    Cursor.rest_ne_nil fun ends => by simp [ends, TokenKind.isRelation] at operator
  have start := Cursor.takes_current real
  have symbol := Cursor.takes_current more
  obtain ⟨sign, kind⟩ := isRelation_iff.1 operator
  cases found : relationOperator c.advance.current.text with
  -- An operator without a meaning stops the parser; no token of a source has one.
  | error fault =>
    refine .of_fault (d := c.advance) ?_ (.advance .refl) (.inr ⟨operator, found⟩)
    rw [relation, run_bind_of_ok (run_expect_of_eq named), run_bind_of_ok run_advance, found]
    rfl
  | ok shown =>
    refine .of_takes (s := do
      let target ← expectIdentifier
      let writes ← attributes
      return {
        source := c.current.text
        target := target
        operator := shown
        label := lastValue? "label" writes
        sourceMultiplicity := lastValue? "fromMult" writes
        targetMultiplicity := lastValue? "toMult" writes
        style := .ofList (styleWrites writes)
        span := ← spanFrom c.current }) ?_ (start.append symbol) ?_
    · rw [relation, run_bind_of_ok (run_expect_of_eq named), run_bind_of_ok run_advance, found]
      rfl
    · apply Outcome.bind (outcome_expectText (by simp))
      intro target c₁
      apply Outcome.bind (outcome_attributes c₁)
      intro writes c₂
      apply Outcome.bind (outcome_spanFrom _)
      intro span c₃
      apply Outcome.pure
      rintro ⟨rfl, rfl⟩ read ⟨token, targetKind, rfl, third⟩ orderly
      have head := start.append (symbol.append third)
      obtain ⟨xs, taken, derived⟩ := read (head.orderly orderly)
      have whole := head.append taken
      -- Its text is that of its kind, so the parser reads the operator that the kind has.
      have text := (whole.orderly_tokens orderly).operator c.advance.current (by simp) sign kind
      rw [text, relationOperator_symbol] at found
      obtain rfl := Except.ok.inj found
      exact ⟨_, whole, .mk named kind targetKind derived rfl rfl (says_writes ..)
        (whole.spans orderly (by simp))⟩

theorem outcome_noteTarget (c : Cursor) : Outcome noteTarget c
    (Reads (Maybe (Behind (.keyword .onWord) Identifier)) c) := by
  refine .bind (outcome_accept (by simp)) fun found c₁ => .ite (fun yes => ?_) fun no => .pure ?_
  · refine .bind outcome_expectIdentifier fun name c₂ => .pure ?_
    rintro read (⟨-, here, first⟩ | ⟨no, -⟩) orderly
    · obtain ⟨xs, taken, @⟨token, kind⟩⟩ := read (first.orderly orderly)
      have written := (first.orderly orderly).named token (by simp [taken.rest_eq])
        (by simp [kind, TokenKind.isName])
      rw [if_neg written]
      exact ⟨_, first.append taken, .present (.mk here (.mk kind))⟩
    · simp [yes] at no
  · rintro (⟨yes, -⟩ | ⟨-, -, rfl⟩) -
    · exact absurd yes no
    · exact ⟨[], .nil _, .absent⟩

theorem outcome_note (c : Cursor) : Outcome note c (Reads Note c) := by
  apply Outcome.bind (outcome_expect (by simp))
  intro word c₁
  apply Outcome.bind (outcome_expectText (by simp))
  intro text c₂
  apply Outcome.bind (outcome_noteTarget c₂)
  intro target c₃
  apply Outcome.bind (outcome_spanFrom _)
  intro span c₄
  apply Outcome.pure
  rintro ⟨rfl, rfl⟩ read ⟨token, textKind, rfl, second⟩ ⟨rfl, wordKind, first⟩ orderly
  obtain ⟨xs, taken, derived⟩ := read ((first.append second).orderly orderly)
  have whole := first.append (second.append taken)
  exact ⟨_, whole, .mk wordKind textKind derived (whole.spans orderly (by simp))⟩

theorem outcome_style (c : Cursor) : Outcome style c (Reads Style c) := by
  apply Outcome.bind (outcome_expect (by simp))
  intro word c₁
  apply Outcome.bind (outcome_expectText (by simp))
  intro target c₂
  apply Outcome.bind (.discard (outcome_expect (by simp)))
  intro _ c₃
  apply Outcome.bind (outcome_settings (by simp) outcome_styleValue c₃)
  intro writes c₄
  apply Outcome.bind (.discard (outcome_expect (by simp)))
  intro _ c₅
  apply Outcome.bind (outcome_spanFrom _)
  intro span c₆
  apply Outcome.pure
  rintro ⟨rfl, rfl⟩ ⟨closing, -, closingKind, last⟩ read ⟨opening, -, openingKind, third⟩
    ⟨token, targetKind, rfl, second⟩ ⟨rfl, wordKind, first⟩ orderly
  have rest := (first.append (second.append third)).orderly orderly
  obtain ⟨xs, taken, derived⟩ := read rest
  have own := taken.orderly_tokens rest
  have all : writes.filter (·.1 ≠ "") = writes :=
    List.filter_eq_self.mpr fun write member => by
      simpa using ne_empty_of_settings derived own write member
  have whole := first.append (second.append (third.append (taken.append last)))
  rw [all]
  exact ⟨_, whole, .mk wordKind targetKind (.mk openingKind derived closingKind)
    (Analysis.enumerates_list writes).written (whole.spans orderly (by simp))⟩

theorem outcome_coordinate (c : Cursor) : Outcome coordinate c fun value d =>
    ∃ token, token.kind = .number ∧ decimalValue token.text = .ok value ∧ c.Takes [token] d := by
  by_cases here : c.current.kind = .number
  · have taken := Cursor.takes_current (c := c) (Cursor.rest_ne_nil (by simp [here]))
    have run : coordinate.run c = (liftM (decimalValue c.current.text) : Reader _).run c.advance := by
      rw [coordinate, run_bind_of_ok (run_expect_of_eq here), if_pos here]
    cases found : decimalValue c.current.text with
    | error fault =>
      exact .of_fault (d := c) (by rw [run, found]; rfl) .refl (.inl ⟨here, .inr found⟩)
    | ok value =>
      exact .of_run (d := c.advance) (by rw [run, found]; rfl) taken.reaches fun _ =>
        ⟨_, here, found, taken⟩
  · have run : coordinate.run c = .ok (.zero false, c.report (.expected .number c.current.toLexeme)
        c.current) := by
      rw [coordinate, run_bind_of_ok (run_expect_of_ne here), if_neg here]
      rfl
    exact .of_run run (.report _ .refl) fun quiet => absurd quiet (errors_report_ne _ _ _)

theorem outcome_layout (c : Cursor) : Outcome layout c (Reads Layout c) := by
  apply Outcome.bind (outcome_expect (by simp))
  intro sign c₁
  apply Outcome.bind (outcome_expectText (by simp))
  intro target c₂
  apply Outcome.bind (.discard (outcome_expect (by simp)))
  intro _ c₃
  apply Outcome.bind (.discard (outcome_expect (by simp)))
  intro _ c₄
  apply Outcome.bind (outcome_coordinate c₄)
  intro x c₅
  apply Outcome.bind (.discard (outcome_expect (by simp)))
  intro _ c₆
  apply Outcome.bind (outcome_coordinate c₆)
  intro y c₇
  apply Outcome.bind (.discard (outcome_expect (by simp)))
  intro _ c₈
  apply Outcome.bind (outcome_spanFrom _)
  intro span c₉
  apply Outcome.pure
  rintro ⟨rfl, rfl⟩ ⟨closing, -, closingKind, eighth⟩ ⟨y, yKind, top, seventh⟩
    ⟨comma, -, commaKind, sixth⟩ ⟨x, xKind, left, fifth⟩ ⟨opening, -, openingKind, fourth⟩
    ⟨word, -, wordKind, third⟩ ⟨token, targetKind, rfl, second⟩ ⟨rfl, signKind, first⟩ orderly
  have whole := first.append (second.append (third.append (fourth.append (fifth.append
    (sixth.append (seventh.append eighth))))))
  have tokens := whole.orderly_tokens orderly
  obtain ⟨across, left_⟩ := (tokens.numeric x (by simp) xKind).spells
  obtain ⟨down, top_⟩ := (tokens.numeric y (by simp) yKind).spells
  rw [left_.decimalValue_eq] at left
  rw [top_.decimalValue_eq] at top
  obtain rfl := Except.ok.inj left
  obtain rfl := Except.ok.inj top
  exact ⟨_, whole, .mk signKind targetKind wordKind openingKind xKind left_ commaKind yKind top_
    closingKind (whole.spans orderly (by simp))⟩

theorem outcome_declaration (levels : Nat) (region : Region) (greedy : Bool) (c : Cursor) :
    Outcome (declaration levels region) c fun found d => ∃ decl, found = some decl ∧
      Reads (DeclarationOf greedy levels) c decl d := by
  have some_ {α : Type} {reader : Reader α} {rule : Rule α} {make : α → Declaration}
      (out : Outcome reader c (Reads rule c))
      (derived : ∀ xs a, rule xs a → DeclarationOf greedy levels xs (make a)) :
      Outcome (reader >>= fun a => pure (some (make a))) c fun found d => ∃ decl,
        found = some decl ∧ Reads (DeclarationOf greedy levels) c decl d := by
    refine .bind out fun a d => .pure fun read => ⟨_, rfl, fun orderly => ?_⟩
    obtain ⟨xs, taken, holds⟩ := read orderly
    exact ⟨xs, taken, derived _ _ holds⟩
  refine outcome_get_bind ?_
  split
  · exact some_ (outcome_layout c) fun _ _ => .layout
  · exact some_ (outcome_note c) fun _ _ => .note
  · exact some_ (outcome_style c) fun _ _ => .style
  · exact some_ (outcome_entity levels greedy c) fun _ _ => .entity
  · exact some_ (outcome_entity levels greedy c) fun _ _ => .entity
  · next named =>
    exact .ite (fun operator => some_ (outcome_relation named operator) fun _ _ => .relation)
      fun _ => .bind (outcome_skipUnexpected region) fun _ _ => .pure fun never => never.elim
  · exact .bind (outcome_skipUnexpected region) fun _ _ => .pure fun never => never.elim

theorem outcome_expect_report {α : Type} {kind : TokenKind} {cause : SyntaxError.Cause}
    {next : Token → Reader α} {clean : α → Cursor → Prop}
    (rest : ∀ token d, Outcome (next token) d fun _ _ => True) (c : Cursor) :
    Outcome (do let token ← expect kind; report cause token; next token) c clean := by
  by_cases here : c.current.kind = kind
  · refine .of_loud (d := c.advance.report cause c.current) ?_ (.reportTaken _ .refl) ?_
      (rest c.current _)
    · rw [run_bind_of_ok (run_expect_of_eq here)]
      rfl
    · exact Cursor.errors_advance c ▸ errors_report_ne _ _ _
  · refine .of_loud (d := (c.report (.expected kind c.current.toLexeme) c.current).report cause
      c.current) ?_ (.report _ (.report _ .refl)) ?_ (rest c.current _)
    · rw [run_bind_of_ok (run_expect_of_ne here)]
      rfl
    · intro quiet
      have longer : c.errors.length + 2 = c.errors.length := congrArg List.length quiet
      omega

section Items

variable {levels : Nat} {greedy : Bool} {body? : Option (Reader (List Item))}
  {rule : Rule (List Item)}

theorem outcome_packageWith (bodies : ∀ reader ∈ body?, ∀ c, Outcome reader c (Reads rule c))
    (c : Cursor) : Outcome (packageWith body?) c (Reads (ItemWith greedy levels rule) c) := by
  apply Outcome.bind (outcome_expect (by simp))
  intro word c₁
  apply Outcome.bind (outcome_expectText (by simp))
  intro name c₂
  cases body? with
  | some body =>
    apply Outcome.bind (outcome_expect (by simp))
    intro brace c₃
    apply Outcome.bind (bodies body rfl c₃)
    intro items c₄
    apply Outcome.bind (.discard (outcome_expect (by simp)))
    intro _ c₅
    apply Outcome.bind (outcome_spanFrom _)
    intro span c₆
    apply Outcome.pure
    rintro ⟨rfl, rfl⟩ ⟨closing, -, closingKind, last⟩ read ⟨rfl, openingKind, third⟩
      ⟨token, nameKind, rfl, second⟩ ⟨rfl, wordKind, first⟩ orderly
    obtain ⟨xs, taken, derived⟩ := read ((first.append (second.append third)).orderly orderly)
    have whole := first.append (second.append (third.append (taken.append last)))
    exact ⟨_, whole, .package wordKind nameKind (.mk openingKind derived closingKind)
      (whole.spans orderly (by simp))⟩
  -- Without a level the package is reported, so nothing need be derived.
  | none =>
    refine outcome_expect_report (fun brace d => ?_) c₂
    have close (d : Cursor) : Outcome (do
        discard (expect (.mark .rightBrace))
        return Item.package name [] (← spanFrom word)) d fun _ _ => True :=
      .bind (outcome_expect (by simp)).discard fun _ _ => .bind (outcome_spanFrom _) fun _ _ =>
        .pure fun _ _ => trivial
    refine .ite (fun _ => ?_) fun _ => close d
    exact .bind (outcome_skipNested _ _) fun _ d => .mono (close d) fun _ _ _ _ => trivial

theorem outcome_item {region : Region} {package : Reader Item}
    (packages : ∀ c, Outcome package c (Reads (ItemWith greedy levels rule) c)) (c : Cursor) :
    Outcome (item levels region package) c fun found d => ∃ item, found = some item ∧
      Reads (ItemWith greedy levels rule) c item d := by
  refine .bind outcome_isAt fun found c₁ => .ite (fun _ => ?_) fun _ => ?_
  · refine .bind (packages c₁) fun package d => .pure ?_
    rintro read ⟨-, rfl⟩
    exact ⟨_, rfl, read⟩
  · refine .bind (outcome_declaration levels region greedy c₁) fun found d => .pure ?_
    rintro ⟨decl, rfl, read⟩ ⟨-, rfl⟩
    refine ⟨_, rfl, fun orderly => ?_⟩
    obtain ⟨xs, taken, derived⟩ := read orderly
    exact ⟨xs, taken, .declaration derived⟩

theorem outcome_manyItems {region : Region}
    (bodies : ∀ reader ∈ body?, ∀ c, Outcome reader c (Reads rule c)) (c : Cursor) :
    Outcome (many (.mark .rightBrace) region (item levels region (packageWith body?))) c
      (Reads (Star (ItemWith greedy levels rule)) c) := by
  have items (c : Cursor) : Outcome (item levels region (packageWith body?)) c fun found d =>
      ∃ item, found = some item ∧ Reads (ItemWith greedy levels rule) c item d :=
    outcome_item (outcome_packageWith bodies) c
  refine .mono (outcome_many items c) ?_
  rintro _ d ⟨found, chain, rfl⟩
  exact chain.somes.star fun _ _ _ read => read

end Items

theorem outcome_items (levels : Nat) (region : Region) (greedy : Bool) (c : Cursor) :
    Outcome (items levels region) c (Reads (ItemsIn greedy levels) c) := by
  induction levels generalizing region c with
  | zero => exact outcome_manyItems (by simp) c
  | succ levels ih =>
    refine outcome_manyItems (fun reader member => ?_) c
    obtain rfl := Option.some.inj member
    exact ih .packageBody

theorem outcome_diagramKind (c : Cursor) : Outcome diagramKind c fun kind d =>
    c.current.kind ≠ .string ∧ DiagramKind.ofWord? c.current.text = some kind ∧
      d = c.advance := by
  refine outcome_current_bind ?_
  split
  · next kind found =>
    refine .bind (.discard outcome_advance) fun _ d => .pure ?_
    rintro ⟨-, -, rfl⟩
    by_cases text : c.current.kind = .string
    · simp [text] at found
    · exact ⟨text, by simpa [text] using found, rfl⟩
  · refine .bind (outcome_report _) fun _ d => .ite (fun _ => ?_) fun _ => .pure fun never => never.elim
    exact .bind (.discard outcome_advance) fun _ _ => .pure fun _ never => never.elim

theorem outcome_diagramDecl (greedy : Bool) (c : Cursor) :
    Outcome diagramDecl c (Reads (Diagram greedy nestingLimit) c) := by
  apply Outcome.bind (outcome_expect (by simp))
  intro word c₁
  apply Outcome.bind (outcome_expectText (by simp))
  intro name c₂
  apply Outcome.bind (.discard (outcome_expect (by simp)))
  intro _ c₃
  apply Outcome.bind (outcome_diagramKind c₃)
  intro kind c₄
  apply Outcome.bind (.discard (outcome_expect (by simp)))
  intro _ c₅
  apply Outcome.bind (outcome_items nestingLimit .diagramBody greedy c₅)
  intro body c₆
  apply Outcome.bind (.discard (outcome_expect (by simp)))
  intro _ c₇
  apply Outcome.bind (outcome_spanFrom _)
  intro span c₈
  apply Outcome.pure
  rintro ⟨rfl, rfl⟩ ⟨closing, -, closingKind, sixth⟩ read ⟨opening, -, openingKind, fifth⟩
    ⟨shownKind, shown, rfl⟩ ⟨colon, -, colonKind, third⟩ ⟨token, nameKind, rfl, second⟩
    ⟨rfl, wordKind, first⟩ orderly
  have fourth : c₃.Takes [c₃.current] c₃.advance := by
    refine Cursor.takes_current fun empty => ?_
    have ends := fifth.rest_eq
    simp [Cursor.rest_advance, empty] at ends
  have head := first.append (second.append (third.append (fourth.append fifth)))
  obtain ⟨xs, taken, derived⟩ := read (head.orderly orderly)
  have whole := head.append (taken.append sixth)
  have text : kind.word = c₃.current.text := by simpa using List.find?_some shown
  have told : IsDiagramWord c₃.current.text kind := isDiagramWord_iff.2 text.symm
  exact ⟨_, whole, .mk wordKind nameKind colonKind shownKind told
    (.mk openingKind derived closingKind) (whole.spans orderly (by simp))⟩

theorem outcome_topLevel (greedy : Bool) (c : Cursor) : Outcome topLevel c fun found d =>
    match found with
    | none => d = c ∧ c.rest = []
    | some part => Reads (Part greedy nestingLimit) c part d := by
  refine outcome_get_bind <| .ite (fun ends => .pure ⟨rfl, by simpa using ends⟩) fun _ => ?_
  split
  · refine .bind (outcome_importDecl c) fun decl d => .pure fun read orderly => ?_
    obtain ⟨xs, taken, derived⟩ := read orderly
    exact ⟨xs, taken, .imported derived⟩
  · refine .bind (outcome_diagramDecl greedy c) fun decl d => .pure fun read orderly => ?_
    obtain ⟨xs, taken, derived⟩ := read orderly
    exact ⟨xs, taken, .diagram derived⟩
  · exact .bind (outcome_report _) fun _ d => .bind (.discard outcome_advance) fun _ _ =>
      .pure fun _ never => never.elim

theorem length_lt_of_expect {α : Type} {kind : TokenKind} {next : Token → Reader α} {c d : Cursor}
    {a : α} (real : kind ≠ .endOfInput) (here : c.current.kind = kind)
    (rest : ∀ token c, Outcome (next token) c fun _ _ => True)
    (run : (expect kind >>= next).run c = .ok (a, d)) : d.rest.length < c.rest.length := by
  rw [run_bind_of_ok (run_expect_of_eq here)] at run
  have more : c.rest ≠ [] := Cursor.rest_ne_nil (here ▸ real)
  exact ((rest _ _).reaches run).length_le.trans_lt (Cursor.length_advance_lt more)

theorem takesToken_topLevel : TakesToken topLevel := by
  intro c part d run
  change (if c.rest.isEmpty then _ else _ : Reader _).run c = _ at run
  split at run
  · simpa using (Prod.mk.inj (Except.ok.inj run)).1
  · next more =>
    split at run
    · next here =>
      obtain ⟨decl, run, -⟩ := run_of_bind_pure run
      refine length_lt_of_expect (by simp) here (fun word c₁ => ?_) run
      exact .bind (outcome_expectText (by simp)) fun _ _ =>
        .bind (.discard (outcome_accept (by simp))) fun _ _ =>
        .bind (outcome_spanFrom _) fun _ _ => .pure fun _ _ _ => trivial
    · next here =>
      obtain ⟨decl, run, -⟩ := run_of_bind_pure run
      refine length_lt_of_expect (by simp) here (fun word c₁ => ?_) run
      exact .bind (outcome_expectText (by simp)) fun _ _ =>
        .bind (.discard (outcome_expect (by simp))) fun _ _ =>
        .bind (outcome_diagramKind _) fun _ _ => .bind (.discard (outcome_expect (by simp))) fun _ _ =>
        .bind (outcome_items nestingLimit .diagramBody true _) fun _ _ =>
        .bind (.discard (outcome_expect (by simp))) fun _ _ =>
        .bind (outcome_spanFrom _) fun _ _ => .pure fun _ _ _ _ _ _ _ => trivial
    · obtain ⟨-, rfl⟩ := Prod.mk.inj (Except.ok.inj run)
      -- What begins no part of a program is skipped, and that takes a token.
      have some_ : c.rest ≠ [] := by simpa using more
      exact Cursor.length_advance_lt some_

theorem outcome_program (greedy : Bool) (c : Cursor) : Outcome program c fun tree d =>
    d.rest = [] ∧ ∃ parts, Reads (Parts greedy nestingLimit) c parts d ∧
      tree = ⟨importsOf parts, diagramsOf parts, ⟨c.current.position, d.current.stop⟩⟩ := by
  apply outcome_current_bind
  apply Outcome.bind (outcome_repeatWhile takesToken_topLevel (outcome_topLevel greedy) c)
  intro parts d
  apply outcome_current_bind
  apply Outcome.pure
  rintro ⟨m, chain, rfl, ends⟩
  exact ⟨ends, parts, chain.star fun _ _ _ read => read, rfl⟩

end ArchDiagram.Syntax
