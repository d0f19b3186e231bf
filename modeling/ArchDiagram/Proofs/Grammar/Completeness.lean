import ArchDiagram.Proofs.Grammar.Completeness.Member

/-!
Entities, relations, annotations, packages and whole programs that the grammar derives are read
without a report.
-/

namespace ArchDiagram.Syntax

open Grammar

section Heads

variable {α : Type} {kind closing : TokenKind} {rule : Rule α} {xs : List Token} {a : α}
  {token : Token}

theorem kind_of_behind (derived : Behind kind rule xs a) (front : xs.head? = some token) :
    token.kind = kind := by
  obtain ⟨here, -⟩ := derived
  obtain rfl := Option.some.inj front
  exact here

theorem kind_of_between (derived : Between kind closing rule xs a)
    (front : xs.head? = some token) : token.kind = kind := by
  obtain ⟨here, -, -⟩ := derived
  obtain rfl := Option.some.inj front
  exact here

theorem kind_of_maybeSome {rule : Rule (List α)} {as : List α}
    (begins : ∀ xs as, rule xs as → xs.head? = some token → token.kind = kind)
    (derived : MaybeSome rule xs as) (front : xs.head? = some token) : token.kind = kind := by
  cases derived with
  | absent => simp at front
  | present derived => exact begins _ _ derived front

end Heads

theorem accepts_membersBetween (levels : Nat) (kind : EntityKind) : Accepts (members levels kind)
    (MaybeSome (Between (.mark .leftBrace) (.mark .rightBrace) (Members true levels kind)))
    (· ≠ .mark .leftBrace) := by
  intro tokens decls c d derived taken orderly next
  cases derived with
  | absent =>
    obtain rfl := Cursor.takes_nil_iff.1 taken
    rw [members, run_bind_of_ok (run_accept_of_ne next)]
    rfl
  | present between =>
    obtain ⟨openingKind, inner, closingKind⟩ := between
    obtain ⟨c₁, first, rest⟩ := taken.uncons
    obtain ⟨c₂, middle, last⟩ := Cursor.takes_append_iff.1 rest
    have read := run_members (.entityBody kind) inner middle (first.orderly orderly)
      (last.current_eq ▸ closingKind)
    rw [members, run_bind_of_ok (first.accept openingKind), if_pos rfl, run_bind_of_ok read,
      run_bind_of_ok (run_discard (last.expect closingKind))]
    rfl

theorem accepts_stereotype : Accepts stereotype (Maybe Stereotype) (· ≠ .stereotypeOpen) := by
  intro tokens name c d derived taken orderly next
  cases derived with
  | absent =>
    obtain rfl := Cursor.takes_nil_iff.1 taken
    rw [stereotype, run_bind_of_ok (run_accept_of_ne next)]
    rfl
  | present derived =>
    obtain ⟨openingKind, nameKind, firstKind, secondKind, touching⟩ := derived
    obtain ⟨c₁, openingTaken, more⟩ := taken.uncons
    obtain ⟨c₂, nameTaken, marks⟩ := more.uncons
    obtain ⟨c₃, firstTaken, secondTaken⟩ := marks.uncons
    -- The two closing marks are looked at together before either is taken.
    have close : stereotypeClose.run c₂ = .ok ((), d) := by
      have behind := firstTaken.ahead_eq
      rw [← firstTaken.current_eq] at firstKind touching
      rw [← secondTaken.current_eq, ← behind] at secondKind touching
      rw [stereotypeClose, run_get_bind, if_pos ⟨firstKind, secondKind, touching⟩,
        run_bind_of_ok (run_discard firstTaken.runAdvance)]
      exact run_discard secondTaken.runAdvance
    rw [stereotype, run_bind_of_ok (openingTaken.accept openingKind), if_pos rfl, expectIdentifier,
      run_bind_of_ok (nameTaken.expectText nameKind), run_bind_of_ok close]
    rfl

theorem accepts_namesBehind (word : Keyword) : Accepts (namesBehind word)
    (MaybeSome (Behind (.keyword word) (CommaList Identifier)))
    (fun kind => kind ≠ .keyword word ∧ kind ≠ .mark .comma) := by
  intro tokens names c d derived taken orderly next
  cases derived with
  | absent =>
    obtain rfl := Cursor.takes_nil_iff.1 taken
    rw [namesBehind, run_bind_of_ok (run_accept_of_ne next.1)]
    rfl
  | present behind =>
    obtain ⟨here, derived⟩ := behind
    obtain ⟨m, first, last⟩ := taken.uncons
    have inner := first.orderly orderly
    have own := last.orderly_tokens inner
    have all : names.filter (· ≠ "") = names :=
      List.filter_eq_self.mpr fun name member => by
        simpa using ne_empty_of_identifiers derived own name member
    have list := accepts_commaList accepts_expectIdentifier trivial derived last inner
      ⟨trivial, next.2⟩
    rw [namesBehind, run_bind_of_ok (first.accept here), if_pos rfl, run_bind_of_ok list, all]
    rfl

/-- What can stand behind a declaration: a token that would go on with it cannot. -/
structure EndsItem (kind : TokenKind) : Prop where
  stereotype : kind ≠ .stereotypeOpen
  extendsWord : kind ≠ .keyword .extendsWord
  implementsWord : kind ≠ .keyword .implementsWord
  comma : kind ≠ .mark .comma
  brace : kind ≠ .mark .leftBrace
  bracket : kind ≠ .mark .leftBracket
  onWord : kind ≠ .keyword .onWord

theorem accepts_entity (levels : Nat) :
    Accepts (entity levels) (Entity true levels) EndsItem := by
  intro tokens decl c d derived taken orderly next
  cases derived with
  | @mk mods word name stereo extended implemented body _ modifiers kind stereotype extendsNames
      implementsNames members span modified wordKind nameKind stereoDerived extendsDerived
      implementsDerived bodyDerived shape spans =>
    subst shape
    obtain ⟨c₁, modsTaken, more⟩ := Cursor.takes_append_iff.1 taken
    obtain ⟨c₂, wordTaken, named⟩ := more.uncons
    obtain ⟨c₃, nameTaken, others⟩ := named.uncons
    obtain ⟨c₄, stereoTaken, c₅, extendsTaken, c₆, implementsTaken, bodyTaken⟩ := by
      simpa only [Cursor.takes_append_iff] using others
    -- Each part may be missing, so what stands behind one is the head of any later part.
    have sixth : c₆.current.kind ≠ .mark .comma ∧ c₆.current.kind ≠ .keyword .implementsWord ∧
        c₆.current.kind ≠ .keyword .extendsWord ∧ c₆.current.kind ≠ .stereotypeOpen := by
      refine bodyTaken.current_of (fun kind => kind ≠ .mark .comma ∧
        kind ≠ .keyword .implementsWord ∧ kind ≠ .keyword .extendsWord ∧ kind ≠ .stereotypeOpen)
        (fun token front => ?_) ⟨next.comma, next.implementsWord, next.extendsWord, next.stereotype⟩
      simp [kind_of_maybeSome (fun _ _ => kind_of_between) bodyDerived front]
    have fifth : c₅.current.kind ≠ .mark .comma ∧ c₅.current.kind ≠ .keyword .extendsWord ∧
        c₅.current.kind ≠ .stereotypeOpen := by
      refine implementsTaken.current_of (fun kind => kind ≠ .mark .comma ∧
        kind ≠ .keyword .extendsWord ∧ kind ≠ .stereotypeOpen)
        (fun token front => ?_) ⟨sixth.1, sixth.2.2⟩
      simp [kind_of_maybeSome (fun _ _ => kind_of_behind) implementsDerived front]
    have fourth : c₄.current.kind ≠ .stereotypeOpen := by
      refine extendsTaken.current_of (· ≠ .stereotypeOpen) (fun token front => ?_) fifth.2.2
      simp [kind_of_maybeSome (fun _ _ => kind_of_behind) extendsDerived front]
    have second := modsTaken.orderly orderly
    have third := nameTaken.orderly (wordTaken.orderly second)
    have unmodified : isModifier c₁.current.kind = false := by
      rw [wordTaken.current_eq, wordKind]
      rfl
    have entityWord : entityKind.run c₁ = .ok (kind, c₂) := by
      rw [entityKind, run_current_bind, wordTaken.current_eq, wordKind]
      exact run_bind_of_ok (run_discard wordTaken.runAdvance)
    rw [entity, run_current_bind,
      run_bind_of_ok (accepts_modifiers modified modsTaken orderly unmodified),
      run_bind_of_ok entityWord, expectIdentifier, run_bind_of_ok (nameTaken.expectText nameKind),
      run_bind_of_ok (accepts_stereotype stereoDerived stereoTaken third fourth),
      run_bind_of_ok (accepts_namesBehind .extendsWord extendsDerived extendsTaken
        (stereoTaken.orderly third) ⟨fifth.2.1, fifth.1⟩),
      run_bind_of_ok (accepts_namesBehind .implementsWord implementsDerived implementsTaken
        (extendsTaken.orderly (stereoTaken.orderly third)) ⟨sixth.2.1, sixth.1⟩),
      run_bind_of_ok (accepts_membersBetween levels kind bodyDerived bodyTaken
        (implementsTaken.orderly (extendsTaken.orderly (stereoTaken.orderly third))) next.brace),
      run_bind_of_ok (taken.spanFrom orderly spans (taken.head?_eq (by simp)))]
    rfl

section Settings

variable {value : Reader String} {values separators : List TokenKind} {closing : TokenKind}

theorem accepts_setting {c d : Cursor} {tokens : List Token} {write : String × String}
    (readsValue : ∀ token c d, token.kind ∈ values → c.Takes [token] d →
      value.run c = .ok (token.text, d))
    (derived : Setting values separators tokens write) (taken : c.Takes tokens d)
    (next : d.current.kind ∉ separators) :
    (setting value separators).run c = .ok (some write, d) := by
  obtain @⟨key, equals, shown, separator, keyKind, equalsKind, valueKind, separated⟩ := derived
  obtain ⟨c₁, first, more⟩ := taken.uncons
  obtain ⟨c₂, second, others⟩ := more.uncons
  obtain ⟨c₃, third, last⟩ := others.uncons
  rw [setting, run_bind_of_ok (first.expectName (isWord_iff.1 keyKind)),
    run_bind_of_ok (run_discard (second.expect equalsKind)),
    run_bind_of_ok (readsValue shown c₂ c₃ valueKind third), run_current_bind]
  cases separated with
  | absent =>
    obtain rfl := Cursor.takes_nil_iff.1 last
    rw [if_neg next]
    rfl
  | present kind =>
    rw [if_pos (last.current_eq ▸ kind)]
    exact run_bind_of_ok (run_discard last.runAdvance)

theorem accepts_settings (region : Region)
    (readsValue : ∀ token c d, token.kind ∈ values → c.Takes [token] d →
      value.run c = .ok (token.text, d))
    (marks : ∀ kind ∈ separators, kind.isName = false) (mark : closing.isName = false)
    (apart : closing ∉ separators) :
    Accepts (many closing region (setting value separators)) (Star (Setting values separators))
      (· = closing) := by
  intro tokens writes c d derived taken orderly next
  -- A separator is no word, so no setting could be taken for one.
  have begins (xs : List Token) (write : String × String)
      (one : Setting values separators xs write) :
      ∃ token, xs.head? = some token ∧ token.kind ∉ separators := by
    obtain ⟨named⟩ := one
    exact ⟨_, rfl, fun member => by simp [isWord_iff, marks _ member] at named⟩
  have rounds (xs : List Token) (write : String × String) (c m : Cursor)
      (one : Setting values separators xs write) (taken : c.Takes xs m) (_ : Orderly c.rest)
      (next : m.current.kind ∉ separators) :
      (manyRound closing region (setting value separators)).run c = .ok (some (some write), m) := by
    have read := accepts_setting readsValue one taken next
    obtain ⟨named⟩ := one
    refine taken.manyRound (by simp) (fun closes => ?_) read
    rw [← taken.current_eq, closes, isWord_iff, mark] at named
    simp at named
  have stop : (manyRound closing region (setting value separators)).run d = .ok (none, d) :=
    run_manyRound_of_end (.inr next)
  have read := run_repeatWhile (· ∉ separators) begins rounds derived taken orderly
    (next ▸ apart) stop
  rw [run_many read]
  simp [List.filterMap_map]

theorem run_attributeValue {token : Token} {c d : Cursor} (kind : token.kind ∈ [.color, .string])
    (taken : c.Takes [token] d) : attributeValue.run c = .ok (token.text, d) := by
  rw [attributeValue, run_bind_of_ok (run_isAt c _), taken.current_eq]
  by_cases color : token.kind = .color
  · rw [if_pos (by simpa using color), run_bind_of_ok taken.runAdvance]
    rfl
  · rw [if_neg (by simpa using color)]
    exact taken.expectText (by simpa [color] using kind)

theorem run_styleValue {token : Token} {c d : Cursor}
    (kind : token.kind ∈ [.number, .color, .string]) (taken : c.Takes [token] d) :
    styleValue.run c = .ok (token.text, d) := by
  rw [styleValue, run_bind_of_ok (run_isAt c _), taken.current_eq]
  by_cases number : token.kind = .number
  · rw [if_pos (by simpa using number), run_bind_of_ok taken.runAdvance]
    rfl
  · rw [if_neg (by simpa using number)]
    exact run_attributeValue (by simpa [number] using kind) taken

end Settings

theorem accepts_attributes : Accepts attributes
    (MaybeSome (Between (.mark .leftBracket) (.mark .rightBracket)
      (Star (Setting [.color, .string] [.mark .comma])))) (· ≠ .mark .leftBracket) := by
  intro tokens writes c d derived taken orderly next
  cases derived with
  | absent =>
    obtain rfl := Cursor.takes_nil_iff.1 taken
    rw [attributes, run_bind_of_ok (run_accept_of_ne next)]
    rfl
  | present between =>
    obtain ⟨openingKind, inner, closingKind⟩ := between
    obtain ⟨c₁, first, rest⟩ := taken.uncons
    obtain ⟨c₂, middle, last⟩ := Cursor.takes_append_iff.1 rest
    have read := accepts_settings .relationAttributes (fun _ _ _ => run_attributeValue)
      (by simp [TokenKind.isName]) rfl (by simp) inner middle (first.orderly orderly)
      (last.current_eq ▸ closingKind)
    rw [attributes, run_bind_of_ok (first.accept openingKind), if_pos rfl, run_bind_of_ok read,
      run_bind_of_ok (run_discard (last.expect closingKind))]
    rfl

theorem accepts_relation : Accepts relation Relation (· ≠ .mark .leftBracket) := by
  intro tokens decl c d derived taken orderly next
  obtain @⟨source, symbol, target, xs, writes, decl, sourceKind, symbolKind, targetKind, written,
    from_, to_, told, spans⟩ := derived
  obtain ⟨c₁, first, more⟩ := taken.uncons
  obtain ⟨c₂, second, others⟩ := more.uncons
  obtain ⟨c₃, third, last⟩ := others.uncons
  have inner := third.orderly (second.orderly (first.orderly orderly))
  have shown := (taken.orderly_tokens orderly).operator symbol (by simp) _ symbolKind
  have own := told.unique (says_writes source.text target.text decl.operator writes decl.span) from_
    to_ rfl rfl
  rw [relation, run_bind_of_ok (first.expect sourceKind), run_bind_of_ok second.runAdvance,
    shown, relationOperator_symbol, run_bind_of_ok (run_ok decl.operator), expectIdentifier,
    run_bind_of_ok (third.expectText targetKind),
    run_bind_of_ok (accepts_attributes written last inner next),
    run_bind_of_ok (taken.spanFrom orderly spans rfl), own]
  rfl

theorem accepts_noteTarget : Accepts noteTarget (Maybe (Behind (.keyword .onWord) Identifier))
    (· ≠ .keyword .onWord) := by
  intro tokens target c d derived taken orderly next
  cases derived with
  | absent =>
    obtain rfl := Cursor.takes_nil_iff.1 taken
    rw [noteTarget, run_bind_of_ok (run_accept_of_ne next)]
    rfl
  | present behind =>
    obtain ⟨here, derived⟩ := behind
    obtain @⟨name, nameKind⟩ := derived
    obtain ⟨m, first, last⟩ := taken.uncons
    have written := (first.orderly orderly).named name (by simp [last.rest_eq])
      (by simp [nameKind, TokenKind.isName])
    rw [noteTarget, run_bind_of_ok (first.accept here), if_pos rfl, expectIdentifier,
      run_bind_of_ok (last.expectText nameKind), if_neg written]
    rfl

theorem accepts_note : Accepts note Note (· ≠ .keyword .onWord) := by
  intro tokens decl c d derived taken orderly next
  obtain @⟨word, text, on, target, span, wordKind, textKind, pinned, spans⟩ := derived
  obtain ⟨c₁, first, more⟩ := taken.uncons
  obtain ⟨c₂, second, last⟩ := more.uncons
  rw [note, run_bind_of_ok (first.expect wordKind), run_bind_of_ok (second.expectText textKind),
    run_bind_of_ok (accepts_noteTarget pinned last (second.orderly (first.orderly orderly)) next),
    run_bind_of_ok (taken.spanFrom orderly spans rfl)]
  rfl

theorem accepts_style : Accepts style Style fun _ => True := by
  intro tokens decl c d derived taken orderly next
  obtain @⟨word, target, block, writes, styles, span, wordKind, targetKind, between, told, spans⟩ :=
    derived
  obtain ⟨openingKind, inner, closingKind⟩ := between
  obtain ⟨c₁, first, more⟩ := taken.uncons
  obtain ⟨c₂, second, others⟩ := more.uncons
  obtain ⟨c₃, third, rest⟩ := others.uncons
  obtain ⟨c₄, middle, last⟩ := Cursor.takes_append_iff.1 rest
  have blockOrderly := third.orderly (second.orderly (first.orderly orderly))
  have read := accepts_settings .styleBlock (fun _ _ _ => run_styleValue)
    (by simp [TokenKind.isName]) rfl (by simp) inner middle blockOrderly
    (last.current_eq ▸ closingKind)
  have own := middle.orderly_tokens blockOrderly
  -- The parser drops writes without a name, but none of these is.
  have all : writes.filter (·.1 ≠ "") = writes :=
    List.filter_eq_self.mpr fun write member => by
      simpa using ne_empty_of_settings inner own write member
  rw [style, run_bind_of_ok (first.expect wordKind), expectIdentifier,
    run_bind_of_ok (second.expectText targetKind),
    run_bind_of_ok (run_discard (third.expect openingKind)), run_bind_of_ok read,
    run_bind_of_ok (run_discard (last.expect closingKind)),
    run_bind_of_ok (taken.spanFrom orderly spans rfl), all]
  have map := told.unique (fun i x y here there => Option.some.inj (here.symm.trans there))
    (Analysis.enumerates_list writes).written
  rw [map]
  rfl

theorem run_coordinate {token : Token} {value : Decimal.Binary64} {c d : Cursor}
    (kind : token.kind = .number) (shown : decimalValue token.text = .ok value)
    (taken : c.Takes [token] d) : coordinate.run c = .ok (value, d) := by
  rw [coordinate, run_bind_of_ok (taken.expect kind), if_pos kind, shown]
  rfl

theorem accepts_layout : Accepts layout Layout fun _ => True := by
  intro tokens decl c d derived taken orderly next
  obtain @⟨sign, target, word, opening, x, comma, y, closing, left, top, span, signKind, targetKind,
    wordKind, openingKind, xKind, xValue, commaKind, yKind, yValue, closingKind, spans⟩ := derived
  obtain ⟨c₁, first, more⟩ := taken.uncons
  obtain ⟨c₂, second, more⟩ := more.uncons
  obtain ⟨c₃, third, more⟩ := more.uncons
  obtain ⟨c₄, fourth, more⟩ := more.uncons
  obtain ⟨c₅, fifth, more⟩ := more.uncons
  obtain ⟨c₆, sixth, more⟩ := more.uncons
  obtain ⟨c₇, seventh, last⟩ := more.uncons
  rw [layout, run_bind_of_ok (first.expect signKind), expectIdentifier,
    run_bind_of_ok (second.expectText targetKind),
    run_bind_of_ok (run_discard (third.expect wordKind)),
    run_bind_of_ok (run_discard (fourth.expect openingKind)),
    run_bind_of_ok (run_coordinate xKind xValue.decimalValue_eq fifth),
    run_bind_of_ok (run_discard (sixth.expect commaKind)),
    run_bind_of_ok (run_coordinate yKind yValue.decimalValue_eq seventh),
    run_bind_of_ok (run_discard (last.expect closingKind)),
    run_bind_of_ok (taken.spanFrom orderly spans rfl)]
  rfl

theorem run_declaration {levels : Nat} (region : Region) {tokens : List Token} {decl : Declaration}
    {c d : Cursor} (derived : DeclarationOf true levels tokens decl) (taken : c.Takes tokens d)
    (orderly : Orderly c.rest) (next : EndsItem d.current.kind) :
    (declaration levels region).run c = .ok (some decl, d) := by
  rw [declaration, run_get_bind]
  cases derived with
  | layout derived =>
    have read := accepts_layout derived taken orderly trivial
    obtain ⟨sign⟩ := derived
    rw [taken.current_eq, sign]
    exact run_bind_of_ok read
  | note derived =>
    have read := accepts_note derived taken orderly next.onWord
    obtain ⟨word⟩ := derived
    rw [taken.current_eq, word]
    exact run_bind_of_ok read
  | style derived =>
    have read := accepts_style derived taken orderly trivial
    obtain ⟨word⟩ := derived
    rw [taken.current_eq, word]
    exact run_bind_of_ok read
  | relation derived =>
    have read := accepts_relation derived taken orderly next.bracket
    -- Only the operator behind the name tells a relation from what cannot be read.
    obtain ⟨source, symbol⟩ := derived
    obtain ⟨m, first, more⟩ := taken.uncons
    rw [taken.current_eq, source]
    change (if c.ahead.kind.isRelation = true then _ else _ : Reader _).run c = _
    rw [first.ahead_eq, more.current_eq, if_pos (isRelation_iff.2 ⟨_, symbol⟩)]
    exact run_bind_of_ok read
  | entity derived =>
    have read := accepts_entity levels derived taken orderly next
    obtain ⟨modified, word, -, -, -, -, -, rfl, -⟩ := derived
    cases modified with
    | nil =>
      rw [taken.current_eq, word]
      exact run_bind_of_ok read
    | cons first _ =>
      obtain ⟨modifier⟩ := first
      rw [taken.current_eq, modifier]
      exact run_bind_of_ok read

theorem head?_of_declaration {greedy : Bool} {levels : Nat} {tokens : List Token}
    {decl : Declaration} (derived : DeclarationOf greedy levels tokens decl) :
    ∃ token, tokens.head? = some token ∧ EndsItem token.kind ∧ token.kind ≠ .mark .rightBrace ∧
      token.kind ≠ .keyword .package := by
  cases derived with
  | layout derived =>
    obtain ⟨sign⟩ := derived
    exact ⟨_, rfl, by constructor <;> simp [sign], by simp [sign], by simp [sign]⟩
  | note derived =>
    obtain ⟨word⟩ := derived
    exact ⟨_, rfl, by constructor <;> simp [word], by simp [word], by simp [word]⟩
  | style derived =>
    obtain ⟨word⟩ := derived
    exact ⟨_, rfl, by constructor <;> simp [word], by simp [word], by simp [word]⟩
  | relation derived =>
    obtain ⟨source⟩ := derived
    exact ⟨_, rfl, by constructor <;> simp [source], by simp [source], by simp [source]⟩
  | entity derived =>
    obtain ⟨modified, word, -, -, -, -, -, rfl, -⟩ := derived
    cases modified with
    | nil => exact ⟨_, rfl, by constructor <;> simp [word], by simp [word], by simp [word]⟩
    | cons first _ =>
      obtain ⟨modifier⟩ := first
      exact ⟨_, rfl, by constructor <;> simp [modifier], by simp [modifier], by simp [modifier]⟩

theorem head?_of_item {greedy : Bool} {levels : Nat} {rule : Rule (List Item)} {tokens : List Token}
    {decl : Item} (derived : ItemWith greedy levels rule tokens decl) :
    ∃ token, tokens.head? = some token ∧ EndsItem token.kind ∧
      token.kind ≠ .mark .rightBrace := by
  cases derived with
  | package word => exact ⟨_, rfl, by constructor <;> simp [word], by simp [word]⟩
  | declaration derived =>
    obtain ⟨token, front, ends, other, -⟩ := head?_of_declaration derived
    exact ⟨token, front, ends, other⟩

section Items

variable {levels : Nat} {body? : Option (Reader (List Item))} {rule : Rule (List Item)}

theorem run_item (region : Region) {tokens : List Token} {decl : Item} {c d : Cursor}
    (bodies : ∀ xs items, rule xs items → ∃ reader, body? = some reader ∧
      Accepts reader rule (· = .mark .rightBrace))
    (derived : ItemWith true levels rule tokens decl) (taken : c.Takes tokens d)
    (orderly : Orderly c.rest) (next : EndsItem d.current.kind) :
    (item levels region (packageWith body?)).run c = .ok (some decl, d) := by
  rw [item, run_bind_of_ok (run_isAt c _)]
  cases derived with
  | @package word name block items span wordKind nameKind between spans =>
    obtain ⟨openingKind, inner, closingKind⟩ := between
    obtain ⟨reader, rfl, accepts⟩ := bodies _ _ inner
    obtain ⟨c₁, first, more⟩ := taken.uncons
    obtain ⟨c₂, second, more⟩ := more.uncons
    obtain ⟨c₃, third, rest⟩ := more.uncons
    obtain ⟨c₄, middle, last⟩ := Cursor.takes_append_iff.1 rest
    have bodyOrderly := third.orderly (second.orderly (first.orderly orderly))
    have read := accepts inner middle bodyOrderly (last.current_eq ▸ closingKind)
    have whole : (packageWith (some reader)).run c = .ok (.package name.text items span, d) := by
      rw [packageWith, run_bind_of_ok (first.expect wordKind), expectIdentifier,
        run_bind_of_ok (second.expectText nameKind), run_bind_of_ok (third.expect openingKind),
        run_bind_of_ok read, run_bind_of_ok (run_discard (last.expect closingKind)),
        run_bind_of_ok (taken.spanFrom orderly spans rfl)]
      rfl
    rw [if_pos (by simpa [taken.current_eq] using wordKind), run_bind_of_ok whole]
    rfl
  | declaration derived =>
    have read := run_declaration region derived taken orderly next
    -- No declaration begins with the word for a package.
    obtain ⟨token, front, -, -, other⟩ := head?_of_declaration derived
    obtain ⟨tail, rfl⟩ := List.head?_eq_some_iff.mp front
    rw [if_neg (by simpa [taken.current_eq] using other), run_bind_of_ok read]
    rfl

theorem accepts_manyItems (region : Region)
    (bodies : ∀ xs items, rule xs items → ∃ reader, body? = some reader ∧
      Accepts reader rule (· = .mark .rightBrace)) :
    Accepts (many (.mark .rightBrace) region (item levels region (packageWith body?)))
      (Star (ItemWith true levels rule)) (· = .mark .rightBrace) := by
  intro tokens decls c d derived taken orderly next
  have begins (xs : List Token) (decl : Item) (one : ItemWith true levels rule xs decl) :
      ∃ token, xs.head? = some token ∧ EndsItem token.kind := by
    obtain ⟨token, front, ends, -⟩ := head?_of_item one
    exact ⟨token, front, ends⟩
  have rounds (xs : List Token) (decl : Item) (c m : Cursor)
      (one : ItemWith true levels rule xs decl) (taken : c.Takes xs m) (orderly : Orderly c.rest)
      (next : EndsItem m.current.kind) :
      (manyRound (.mark .rightBrace) region (item levels region (packageWith body?))).run c =
        .ok (some (some decl), m) := by
    have read := run_item region bodies one taken orderly next
    obtain ⟨token, front, -, other⟩ := head?_of_item one
    obtain ⟨tail, rfl⟩ := List.head?_eq_some_iff.mp front
    exact taken.manyRound (by simp) (taken.current_eq ▸ other) read
  have read := run_repeatWhile EndsItem begins rounds derived taken orderly
    (by constructor <;> simp [next]) (run_manyRound_of_end (.inr next))
  rw [run_many read]
  simp [List.filterMap_map]

end Items

theorem accepts_items (levels : Nat) (region : Region) :
    Accepts (items levels region) (ItemsIn true levels) (· = .mark .rightBrace) := by
  induction levels generalizing region with
  | zero => exact accepts_manyItems region fun _ _ never => never.elim
  | succ levels ih =>
    exact accepts_manyItems region fun _ _ _ => ⟨_, rfl, ih .packageBody⟩

theorem ofWord?_word (kind : DiagramKind) : DiagramKind.ofWord? kind.word = some kind := by
  cases kind <;> decide

theorem accepts_diagramDecl :
    Accepts diagramDecl (Diagram true nestingLimit) fun _ => True := by
  intro tokens decl c d derived taken orderly next
  obtain @⟨word, name, colon, shown, block, kind, items, span, wordKind, nameKind, colonKind,
    shownKind, text, between, spans⟩ := derived
  obtain ⟨openingKind, inner, closingKind⟩ := between
  obtain ⟨c₁, first, more⟩ := taken.uncons
  obtain ⟨c₂, second, more⟩ := more.uncons
  obtain ⟨c₃, third, more⟩ := more.uncons
  obtain ⟨c₄, fourth, more⟩ := more.uncons
  obtain ⟨c₅, fifth, rest⟩ := more.uncons
  obtain ⟨c₆, middle, last⟩ := Cursor.takes_append_iff.1 rest
  have bodyOrderly := fifth.orderly (fourth.orderly (third.orderly (second.orderly
    (first.orderly orderly))))
  have read : diagramKind.run c₃ = .ok (kind, c₄) := by
    rw [diagramKind, run_current_bind, fourth.current_eq, if_neg shownKind,
      isDiagramWord_iff.1 text, ofWord?_word]
    exact run_bind_of_ok (run_discard fourth.runAdvance)
  rw [diagramDecl, run_bind_of_ok (first.expect wordKind), expectIdentifier,
    run_bind_of_ok (second.expectText nameKind),
    run_bind_of_ok (run_discard (third.expect colonKind)),
    run_bind_of_ok read, run_bind_of_ok (run_discard (fifth.expect openingKind)),
    run_bind_of_ok (accepts_items nestingLimit .diagramBody inner middle bodyOrderly
      (last.current_eq ▸ closingKind)),
    run_bind_of_ok (run_discard (last.expect closingKind)),
    run_bind_of_ok (taken.spanFrom orderly spans rfl)]
  rfl

/-- The parts of a source are read one by one, and then it goes on behind them. A semicolon there
would be taken for the end of an import. -/
theorem repeatWhile_topLevel {tokens : List Token} {parts : List TopLevel} {c d : Cursor}
    (derived : Parts true nestingLimit tokens parts) (taken : c.Takes tokens d)
    (orderly : Orderly c.rest) (next : d.current.kind ≠ .mark .semicolon) :
    repeatWhile topLevel c =
      (repeatWhile topLevel d).map fun (more, last) => (parts ++ more, last) := by
  have begins (xs : List Token) (part : TopLevel) (one : Part true nestingLimit xs part) :
      ∃ token, xs.head? = some token ∧ token.kind ≠ .mark .semicolon := by
    cases one with
    | imported one | diagram one =>
      obtain ⟨word⟩ := one
      exact ⟨_, rfl, by simp [word]⟩
  have rounds (xs : List Token) (part : TopLevel) (c m : Cursor)
      (one : Part true nestingLimit xs part) (taken : c.Takes xs m) (orderly : Orderly c.rest)
      (next : m.current.kind ≠ .mark .semicolon) : topLevel.run c = .ok (some (id part), m) := by
    -- What is derived is not empty, so the loop does not stop in front of it.
    have more : ¬ c.rest.isEmpty = true := by
      cases one with
      | imported one | diagram one =>
        obtain ⟨-⟩ := one
        simp [taken.rest_eq]
    rw [topLevel, run_get_bind, if_neg more]
    cases one with
    | imported one =>
      have read := accepts_importDecl one taken orderly next
      obtain ⟨word⟩ := one
      rw [taken.current_eq, word]
      exact run_bind_of_ok read
    | diagram one =>
      have read := accepts_diagramDecl one taken orderly trivial
      obtain ⟨word⟩ := one
      rw [taken.current_eq, word]
      exact run_bind_of_ok read
  have whole := repeatWhile_over (· ≠ .mark .semicolon) begins rounds derived taken orderly next
  rwa [List.map_id] at whole

theorem run_program {tokens : List Token} {parts : List TopLevel} {c d : Cursor}
    (derived : Parts true nestingLimit tokens parts) (taken : c.Takes tokens d)
    (orderly : Orderly c.rest) (ends : d.rest = []) :
    program.run c =
      .ok (⟨importsOf parts, diagramsOf parts, ⟨c.current.position, d.current.stop⟩⟩, d) := by
  have next : d.current.kind ≠ .mark .semicolon := by
    simp [Cursor.current, ends, d.kind_final]
  have stop : topLevel.run d = .ok (none, d) := by
    rw [topLevel, run_get_bind, if_pos (by simp [ends])]
    rfl
  have read : repeatWhile topLevel c = .ok (parts, d) := by
    rw [repeatWhile_topLevel derived taken orderly next, repeatWhile_of_none stop]
    exact congrArg (fun parts => Except.ok (parts, d)) (List.append_nil _)
  rw [program, run_current_bind]
  exact run_bind_of_ok read

end ArchDiagram.Syntax
