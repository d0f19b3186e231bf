import ArchDiagram.Proofs.Grammar.Soundness.Member

/-!
What the grammar derives is read without a report. A reader takes all the tokens of a derivation,
provided that the token behind them is not one that it would take as well. In the statements below
that proviso is a condition on the kind of the token at the last cursor.
-/

namespace ArchDiagram.Syntax

open Grammar

namespace Cursor.Takes

variable {c d : Cursor} {token : Token} {tokens : List Token} {kind : TokenKind}

theorem uncons (taken : c.Takes (token :: tokens) d) :
    ∃ m, c.Takes [token] m ∧ m.Takes tokens d := by
  rw [← List.singleton_append] at taken
  exact takes_append_iff.1 taken

theorem eq_advance (taken : c.Takes [token] d) : d = c.advance := by
  rcases taken with - | ⟨-, last⟩
  exact takes_nil_iff.1 last

theorem ahead_eq (taken : c.Takes [token] d) : c.ahead = d.current := by
  rw [Cursor.ahead_eq (by simp [taken.rest_eq]), following_eq, ← taken.eq_advance]

theorem head?_eq (taken : c.Takes tokens d) (some_ : tokens ≠ []) :
    tokens.head? = some c.current := by
  cases tokens with
  | nil => exact absurd rfl some_
  | cons token tokens => rw [taken.current_eq, List.head?_cons]

theorem expect (taken : c.Takes [token] d) (here : token.kind = kind) :
    (expect kind).run c = .ok (token, d) := by
  have found := taken.current_eq
  rw [run_expect_of_eq (found ▸ here), found, taken.eq_advance]

theorem expectText (taken : c.Takes [token] d) (here : token.kind = kind) :
    (expectText kind).run c = .ok (token.text, d) := by
  have found := taken.current_eq
  rw [run_expectText_of_eq (found ▸ here), found, taken.eq_advance]

theorem expectName (taken : c.Takes [token] d) (here : token.kind.isName = true) :
    expectName.run c = .ok (token.text, d) := by
  have found := taken.current_eq
  rw [run_expectName_of_name (found ▸ here), found, taken.eq_advance]

theorem accept (taken : c.Takes [token] d) (here : token.kind = kind) :
    (accept kind).run c = .ok (true, d) := by
  have found := taken.current_eq
  rw [run_accept_of_eq (found ▸ here), taken.eq_advance]

theorem runAdvance (taken : c.Takes [token] d) : Syntax.advance.run c = .ok (token, d) := by
  rw [run_advance, taken.current_eq, taken.eq_advance]

theorem spanFrom {span : Span} (taken : c.Takes tokens d) (orderly : Orderly c.rest)
    (spans : Spans tokens span) (front : tokens.head? = some token) :
    (spanFrom token).run d = .ok (span, d) := by
  obtain @⟨_, first, last, head, final⟩ := spans
  obtain rfl : first = token := Option.some.inj (head.symm.trans front)
  have forward := (taken.orderly_tokens orderly).start_lt_stop head final
  change Except.ok ((⟨first.position, max d.lastStop first.position.offset⟩ : Span), d) = _
  rw [taken.lastStop_eq final, Nat.max_eq_left (Nat.le_of_lt forward)]

end Cursor.Takes

section Shapes

variable {α β : Type} {c d : Cursor} {tokens : List Token} {kind : TokenKind}

theorem run_isAt (c : Cursor) (kind : TokenKind) :
    (isAt kind).run c = .ok (decide (c.current.kind = kind), c) := rfl

theorem Cursor.Takes.current_of (p : TokenKind → Prop) (taken : c.Takes tokens d)
    (begins : ∀ token, tokens.head? = some token → p token.kind) (next : p d.current.kind) :
    p c.current.kind := by
  cases tokens with
  | nil =>
    obtain rfl := Cursor.takes_nil_iff.1 taken
    exact next
  | cons token tokens =>
    rw [taken.current_eq]
    exact begins token rfl

/-- What a rule derives is taken as a whole and gives the tree, unless the token behind it is of a
kind that does not fit there. -/
def Accepts (r : Reader α) (rule : Rule α) (fits : TokenKind → Prop) : Prop :=
  ∀ ⦃tokens a c d⦄, rule tokens a → c.Takes tokens d → Orderly c.rest → fits d.current.kind →
    r.run c = .ok (a, d)

/-- A round for each element of the list, and then it goes on behind them. An element may be
followed by the beginning of another one, or by the token behind the list. -/
theorem repeatWhile_over (fits : TokenKind → Prop) {rule : Rule α} {round : Reader (Option β)}
    {f : α → β}
    (begins : ∀ xs a, rule xs a → ∃ token, xs.head? = some token ∧ fits token.kind)
    (rounds : ∀ xs a c m, rule xs a → c.Takes xs m → Orderly c.rest → fits m.current.kind →
      round.run c = .ok (some (f a), m))
    {as : List α} (derived : Star rule tokens as) (taken : c.Takes tokens d)
    (orderly : Orderly c.rest) (next : fits d.current.kind) :
    repeatWhile round c =
      (repeatWhile round d).map fun (more, last) => (as.map f ++ more, last) := by
  have heads {ys : List Token} {as : List α} (star : Star rule ys as) (token : Token)
      (front : ys.head? = some token) : fits token.kind := by
    cases star with
    | nil => simp at front
    | cons first _ =>
      obtain ⟨head, here, fitting⟩ := begins _ _ first
      obtain rfl : head = token := by simpa [List.head?_append, here] using front
      exact fitting
  -- Induction on the list: what stands behind an element is the front of the next one, or the end.
  induction derived generalizing c with
  | nil =>
    obtain rfl := Cursor.takes_nil_iff.1 taken
    cases repeatWhile round d <;> rfl
  | @cons xs ys a as first rest ih =>
    obtain ⟨m, here, further⟩ := Cursor.takes_append_iff.1 taken
    have run := rounds _ _ _ _ first here orderly (further.current_of _ (heads rest) next)
    have some_ : xs ≠ [] := by
      obtain ⟨token, front, -⟩ := begins _ _ first
      rintro rfl
      simp at front
    rw [repeatWhile_of_some run (here.length_lt some_), ih further (here.orderly orderly)]
    cases repeatWhile round d <;> rfl

theorem run_repeatWhile (fits : TokenKind → Prop) {rule : Rule α} {round : Reader (Option β)}
    {f : α → β}
    (begins : ∀ xs a, rule xs a → ∃ token, xs.head? = some token ∧ fits token.kind)
    (rounds : ∀ xs a c m, rule xs a → c.Takes xs m → Orderly c.rest → fits m.current.kind →
      round.run c = .ok (some (f a), m))
    {as : List α} (derived : Star rule tokens as) (taken : c.Takes tokens d)
    (orderly : Orderly c.rest) (next : fits d.current.kind)
    (stop : round.run d = .ok (none, d)) : repeatWhile round c = .ok (as.map f, d) := by
  rw [repeatWhile_over fits begins rounds derived taken orderly next, repeatWhile_of_none stop]
  exact congrArg (fun as => Except.ok (as, d)) (List.append_nil _)

theorem run_separator (derived : Separator [kind] tokens) (taken : c.Takes tokens d)
    (next : tokens = [] → d.current.kind ≠ kind) :
    (discard (accept kind)).run c = .ok ((), d) := by
  cases derived with
  | absent =>
    obtain rfl := Cursor.takes_nil_iff.1 taken
    exact run_discard (run_accept_of_ne (next rfl))
  | present here => exact run_discard (taken.accept (by simpa using here))

theorem accepts_commaList {item : Reader α} {rule : Rule α} {fits : TokenKind → Prop}
    (items : Accepts item rule fits) (comma : fits (.mark .comma)) :
    Accepts (separatedByCommas item) (CommaList rule)
      fun kind => fits kind ∧ kind ≠ .mark .comma := by
  intro tokens as c d derived taken orderly next
  cases derived with
  | mk first more =>
    obtain ⟨m, here, further⟩ := Cursor.takes_append_iff.1 taken
    have begins (xs : List Token) (a : α) (behind : Behind (.mark .comma) rule xs a) :
        ∃ token, xs.head? = some token ∧ fits token.kind := by
      obtain ⟨kind, -⟩ := behind
      exact ⟨_, rfl, kind ▸ comma⟩
    have rounds (xs : List Token) (a : α) (c m : Cursor) (behind : Behind (.mark .comma) rule xs a)
        (taken : c.Takes xs m) (orderly : Orderly c.rest) (next : fits m.current.kind) :
        (commaRound item).run c = .ok (some (id a), m) := by
      obtain ⟨kind, derived⟩ := behind
      obtain ⟨e, step, rest⟩ := taken.uncons
      rw [commaRound, run_bind_of_ok (step.accept kind), if_pos rfl,
        run_bind_of_ok (items derived rest (step.orderly orderly) next)]
      rfl
    -- Behind the first element stands a comma or what stands behind the list.
    have fitting : fits m.current.kind := by
      refine further.current_of _ (fun token front => ?_) next.1
      cases more with
      | nil => simp at front
      | cons behind _ =>
        obtain ⟨kind, -⟩ := behind
        obtain rfl := Option.some.inj front
        exact kind ▸ comma
    have rest := run_repeatWhile fits begins rounds more further (here.orderly orderly) next.1
      (run_commaRound_of_other next.2)
    rw [separatedByCommas, run_bind_of_ok (items first here orderly fitting),
      run_bind_of_ok (show (behindCommas item).run m = _ from rest), List.map_id]
    rfl

theorem accepts_expectIdentifier : Accepts expectIdentifier Identifier fun _ => True := by
  intro tokens text c d derived taken orderly next
  obtain ⟨kind⟩ := derived
  exact taken.expectText kind

end Shapes

theorem accepts_importDecl : Accepts importDecl Import (· ≠ .mark .semicolon) := by
  intro tokens decl c d derived taken orderly next
  cases derived with
  | mk wordKind pathKind separated spans =>
    obtain ⟨c₁, first, more⟩ := taken.uncons
    obtain ⟨c₂, second, last⟩ := more.uncons
    rw [importDecl, run_bind_of_ok (first.expect wordKind),
      run_bind_of_ok (second.expectText pathKind),
      run_bind_of_ok (run_separator separated last fun _ => next),
      run_bind_of_ok (taken.spanFrom orderly spans rfl)]
    rfl

theorem accepts_modifiers : Accepts modifiers (Star ModifierWord) (isModifier · = false) := by
  intro tokens words c d derived taken orderly next
  have begins (xs : List Token) (word : Modifier) (one : ModifierWord xs word) :
      ∃ token, xs.head? = some token ∧ True := by
    obtain ⟨-⟩ := one
    exact ⟨_, rfl, trivial⟩
  have rounds (xs : List Token) (word : Modifier) (c m : Cursor) (one : ModifierWord xs word)
      (taken : c.Takes xs m) (_ : Orderly c.rest) (_ : True) :
      modifierRound.run c = .ok (some (id word), m) := by
    obtain ⟨kind⟩ := one
    rw [modifierRound, run_current_bind, taken.current_eq, kind]
    exact run_bind_of_ok (run_discard taken.runAdvance)
  have stop : modifierRound.run d = .ok (none, d) := by
    rw [modifierRound, run_current_bind]
    split
    · next word here => simp [here, isModifier] at next
    · rfl
  have read := run_repeatWhile (fun _ => True) begins rounds derived taken orderly trivial stop
  rwa [List.map_id] at read

/-- What can stand behind a type: a mark that would go on with it cannot. -/
def EndsType (kind : TokenKind) : Prop := kind ≠ .mark .less ∧ kind ≠ .mark .question

section Types

variable {arguments? : Option (Reader (List TypeExpr))} {rule : Rule (List TypeExpr)}

theorem accepts_typeBase (arguments : ∀ xs args, rule xs args → ∃ reader, arguments? = some reader ∧
      Accepts reader (Between (.mark .less) (.mark .greater) rule) fun _ => True) :
    Accepts (typeBase arguments?) (TypeBase rule) (· ≠ .mark .less) := by
  intro tokens type c d derived taken orderly next
  rw [typeBase, run_current_bind]
  cases derived with
  | @simple name span named spans =>
    have found := taken.current_eq
    have taking : (discard advance).run c = .ok ((), d) := run_discard taken.runAdvance
    rw [if_pos (found ▸ isTypeWord_iff.1 named), run_bind_of_ok taking, run_bind_of_ok (run_isAt d _),
      if_neg (by simpa using next), found, run_bind_of_ok (taken.spanFrom orderly spans rfl)]
    rfl
  | @generic name xs args span named between spans =>
    obtain ⟨m, first, rest⟩ := taken.uncons
    have found := first.current_eq
    have taking : (discard advance).run c = .ok ((), m) := run_discard first.runAdvance
    cases between with
    | @mk opening closing ys _ openingKind inner closingKind =>
      obtain ⟨reader, rfl, accepts⟩ := arguments ys args inner
      have opens : m.current.kind = .mark .less := by rw [rest.current_eq, openingKind]
      rw [if_pos (found ▸ isTypeWord_iff.1 named), run_bind_of_ok taking, run_bind_of_ok (run_isAt m _),
        if_pos (by simpa using opens), found, run_bind_of_ok (accepts
          (.mk openingKind inner closingKind) rest (first.orderly orderly) trivial),
        run_bind_of_ok (taken.spanFrom orderly spans rfl)]
      rfl

theorem accepts_typeWith (arguments : ∀ xs args, rule xs args → ∃ reader, arguments? = some reader ∧
      Accepts reader (Between (.mark .less) (.mark .greater) rule) fun _ => True) :
    Accepts (typeWith arguments?) (TypeWith rule) EndsType := by
  intro tokens type c d derived taken orderly next
  cases derived with
  | plain base =>
    rw [typeWith, run_current_bind,
      run_bind_of_ok (accepts_typeBase arguments base taken orderly next.1),
      run_bind_of_ok (run_accept_of_ne next.2)]
    rfl
  | @nullable xs mark base span derived markKind spans =>
    obtain ⟨m, first, last⟩ := Cursor.takes_append_iff.1 taken
    have fits : m.current.kind ≠ .mark .less := by simp [last.current_eq, markKind]
    rw [typeWith, run_current_bind,
      run_bind_of_ok (accepts_typeBase arguments derived first orderly fits),
      run_bind_of_ok (last.accept markKind), if_pos rfl,
      run_bind_of_ok (taken.spanFrom orderly spans (taken.head?_eq (by simp)))]
    rfl

end Types

theorem accepts_typeArguments {argument : Reader TypeExpr} {rule : Rule TypeExpr}
    (arguments : Accepts argument rule EndsType) : Accepts (typeArguments argument)
      (Between (.mark .less) (.mark .greater) (CommaList rule)) fun _ => True := by
  intro tokens args c d derived taken orderly next
  cases derived with
  | mk openingKind inner closingKind =>
    obtain ⟨c₁, first, rest⟩ := taken.uncons
    obtain ⟨c₂, middle, last⟩ := Cursor.takes_append_iff.1 rest
    have list := accepts_commaList arguments (by simp [EndsType]) inner middle
      (first.orderly orderly) (by simp [EndsType, last.current_eq, closingKind])
    rw [typeArguments, run_bind_of_ok (run_discard (first.expect openingKind)), run_bind_of_ok list,
      run_bind_of_ok (run_discard (last.expect closingKind))]
    rfl

theorem accepts_typeExpr (levels : Nat) : Accepts (typeExpr levels) (TypeIn levels) EndsType := by
  induction levels with
  | zero => exact accepts_typeWith fun _ _ never => never.elim
  | succ levels ih => exact accepts_typeWith fun _ _ _ => ⟨_, rfl, accepts_typeArguments ih⟩

theorem accepts_literal : Accepts literal LiteralOf fun _ => True := by
  have read {token : Token} {value : Constant} {span : Span} {c d : Cursor}
      (shown : constant? token.toLexeme = some (.ok value)) (spans : Spans [token] span)
      (taken : c.Takes [token] d) (orderly : Orderly c.rest) :
      literal.run c = .ok (⟨value, span⟩, d) := by
    rw [literal, run_current_bind, taken.current_eq, shown]
    change ((discard advance : Reader Unit) >>= _).run c = _
    rw [run_bind_of_ok (run_discard taken.runAdvance), run_bind_of_ok (run_ok value),
      run_bind_of_ok (taken.spanFrom orderly spans rfl)]
    rfl
  intro tokens tree c d derived taken orderly next
  cases derived with
  | text kind spans => exact read (by simp [constant?, kind]) spans taken orderly
  | number kind value spans =>
    exact read (by simp [constant?, kind, value.numberValue_eq]) spans taken orderly
  | yes kind text spans => exact read (by simp [constant?, kind, text]) spans taken orderly
  | no kind text spans => exact read (by simp [constant?, kind, text]) spans taken orderly

theorem accepts_visibility : Accepts visibility Visibility (visibility? · = none) := by
  intro tokens mark c d derived taken orderly next
  rw [visibility, run_current_bind]
  cases derived with
  | absent =>
    obtain rfl := Cursor.takes_nil_iff.1 taken
    rw [next]
    rfl
  | present shown =>
    rw [taken.current_eq, isVisibility_iff.1 shown]
    exact run_bind_of_ok (run_discard taken.runAdvance)

theorem accepts_param (levels : Nat) : Accepts (param levels) (Param levels) EndsType := by
  intro tokens decl c d derived taken orderly next
  cases derived with
  | mk nameKind colonKind derived spans =>
    obtain ⟨c₁, first, more⟩ := taken.uncons
    obtain ⟨c₂, second, last⟩ := more.uncons
    have type := accepts_typeExpr levels derived last (second.orderly (first.orderly orderly)) next
    rw [param, run_current_bind, run_bind_of_ok (first.expectName (isWord_iff.1 nameKind)),
      run_bind_of_ok (run_discard (second.expect colonKind)), run_bind_of_ok type,
      run_bind_of_ok (taken.spanFrom orderly spans (taken.head?_eq (by simp)))]
    rfl

theorem accepts_defaultValue : Accepts defaultValue
    (Maybe (Behind (.mark .equals) LiteralOf)) (· ≠ .mark .equals) := by
  intro tokens value c d derived taken orderly next
  cases derived with
  | absent =>
    obtain rfl := Cursor.takes_nil_iff.1 taken
    rw [defaultValue, run_bind_of_ok (run_accept_of_ne next)]
    rfl
  | present behind =>
    obtain ⟨kind, derived⟩ := behind
    obtain ⟨m, first, last⟩ := taken.uncons
    rw [defaultValue, run_bind_of_ok (first.accept kind), if_pos rfl,
      run_bind_of_ok (accepts_literal derived last (first.orderly orderly) trivial)]
    rfl

theorem accepts_params (levels : Nat) : Accepts (params levels)
    (MaybeSome (CommaList (Param levels))) (· = .mark .rightParen) := by
  intro tokens list c d derived taken orderly next
  rw [params, run_bind_of_ok (run_isAt c _)]
  cases derived with
  | absent =>
    obtain rfl := Cursor.takes_nil_iff.1 taken
    rw [if_pos (by simpa using next)]
    rfl
  | present derived =>
    have named : c.current.kind.isName = true := by
      obtain ⟨first, -⟩ := derived
      obtain ⟨nameKind, -⟩ := first
      rwa [taken.current_eq, ← isWord_iff]
    rw [if_neg (by intro closes; simp_all [TokenKind.isName])]
    exact accepts_commaList (accepts_param levels) (by simp [EndsType]) derived taken orderly
      (by simp [EndsType, next])

theorem visibility?_of_isName {kind : TokenKind} (named : kind.isName = true) :
    visibility? kind = none := by
  cases kind <;> simp_all [TokenKind.isName, visibility?]

section Members

variable {levels : Nat} {kind : EntityKind} {c d : Cursor} {tokens : List Token}
  {vis mods rest : List Token} {name : Token} {visibility : VisibilityMark}
  {modifiers : List Modifier}

theorem named_of_modifiers {token : Token} (modified : Star ModifierWord mods modifiers)
    (named : name.kind.isName = true) (front : (mods ++ name :: rest).head? = some token) :
    token.kind.isName = true := by
  cases modified with
  | nil =>
    obtain rfl := Option.some.inj front
    exact named
  | cons first _ =>
    obtain ⟨word⟩ := first
    obtain rfl := Option.some.inj front
    simp [word, TokenKind.isName]

theorem isMemberStart_of_head {token : Token} (marked : Visibility vis visibility)
    (modified : Star ModifierWord mods modifiers) (named : IsWord name.kind)
    (front : (vis ++ (mods ++ name :: rest)).head? = some token) :
    isMemberStart token.kind = true := by
  cases marked with
  | absent => simp [isMemberStart, named_of_modifiers modified (isWord_iff.1 named) front]
  | present shown =>
    obtain rfl := Option.some.inj front
    simp [isMemberStart, isVisibility_iff.1 shown]

theorem run_fieldOrMethod (levels : Nat) (kind : EntityKind) (marked : Visibility vis visibility)
    (modified : Star ModifierWord mods modifiers) (named : IsMemberName name)
    (taken : c.Takes (vis ++ (mods ++ name :: rest)) d) (orderly : Orderly c.rest) :
    ∃ m, m.Takes rest d ∧ Orderly m.rest ∧ (fieldOrMethod levels kind).run c =
      (do if ← isAt (.mark .leftParen) then
            return some (.method (← methodRest levels c.current visibility modifiers name.text))
          else
            return some (.field (← fieldRest levels c.current visibility modifiers name.text)) :
        Reader (Option Member)).run m := by
  obtain ⟨c₁, visTaken, more⟩ := Cursor.takes_append_iff.1 taken
  obtain ⟨c₂, modsTaken, behind⟩ := Cursor.takes_append_iff.1 more
  obtain ⟨c₃, nameTaken, last⟩ := behind.uncons
  have second := visTaken.orderly orderly
  have third := modsTaken.orderly second
  have start : isMemberStart c.current.kind = true :=
    isMemberStart_of_head marked modified named.1 (taken.head?_eq (by simp))
  -- Each part ends where it does because the next one begins with a name.
  have unmarked : visibility? c₁.current.kind = none :=
    visibility?_of_isName
      (named_of_modifiers modified (isWord_iff.1 named.1) (more.head?_eq (by simp)))
  have unmodified : isModifier c₂.current.kind = false :=
    isModifier_eq_false_iff.2 (nameTaken.current_eq ▸ named.2)
  have written : name.text ≠ "" := third.named name (by simp [nameTaken.rest_eq]) (isWord_iff.1 named.1)
  refine ⟨c₃, last, nameTaken.orderly third, ?_⟩
  rw [fieldOrMethod, run_current_bind, if_pos start,
    run_bind_of_ok (accepts_visibility marked visTaken orderly unmarked),
    run_bind_of_ok (accepts_modifiers modified modsTaken second unmodified),
    run_bind_of_ok (nameTaken.expectName (isWord_iff.1 named.1)), if_neg written]

def EndsMember (kind : TokenKind) : Prop :=
  kind ∉ [.mark .less, .mark .question, .mark .equals, .mark .colon, .mark .leftParen]

theorem getLast?_of_typeIn {xs : List Token} {type : TypeExpr} (derived : TypeIn levels xs type) :
    ∃ last, xs.getLast? = some last ∧ last.kind ≠ .mark .semicolon := by
  have base {rule : Rule (List TypeExpr)} {ys : List Token} {type : TypeExpr}
      (derived : TypeBase rule ys type) :
      ∃ last, ys.getLast? = some last ∧ last.kind ≠ .mark .semicolon := by
    cases derived with
    | @simple name _ named => exact ⟨name, rfl, fun kind => nomatch kind ▸ named⟩
    | generic _ between =>
      obtain ⟨-, -, closing⟩ := between
      exact ⟨_, by rw [← List.cons_append, ← List.cons_append]; exact List.getLast?_concat,
        by simp [closing]⟩
  have whole {rule : Rule (List TypeExpr)} (derived : TypeWith rule xs type) :
      ∃ last, xs.getLast? = some last ∧ last.kind ≠ .mark .semicolon := by
    cases derived with
    | plain derived => exact base derived
    | nullable _ mark => exact ⟨_, List.getLast?_concat, by simp [mark]⟩
  cases levels with
  | zero => exact whole derived
  | succ levels => exact whole derived

theorem unseparated (before : List Token) {semicolon : List Token}
    (attached : (∃ last, (before ++ semicolon).getLast? = some last ∧
      last.kind = .mark .semicolon) ∨ d.current.kind ≠ .mark .semicolon)
    (ends : ∃ last, before.getLast? = some last ∧ last.kind ≠ .mark .semicolon) :
    semicolon = [] → d.current.kind ≠ .mark .semicolon := by
  rintro rfl
  rcases attached with ⟨last, final, here⟩ | other
  · obtain ⟨own, front, other⟩ := ends
    rw [List.append_nil] at final
    exact absurd here (Option.some.inj (front.symm.trans final) ▸ other)
  · exact other

theorem current_of_separator {semicolon : List Token}
    (separated : Separator [.mark .semicolon] semicolon) (taken : c.Takes semicolon d)
    (next : EndsMember d.current.kind) : EndsMember c.current.kind := by
  refine taken.current_of _ (fun token front => ?_) next
  cases separated with
  | absent => simp at front
  | present here =>
    obtain rfl := Option.some.inj front
    simp_all [EndsMember]

theorem getLast?_of_typed (before : List Token) {xs assigned : List Token} {type : TypeExpr}
    {value : Option Literal} (typed : TypeIn levels xs type)
    (valued : Maybe (Behind (.mark .equals) LiteralOf) assigned value) :
    ∃ last, (before ++ (xs ++ assigned)).getLast? = some last ∧ last.kind ≠ .mark .semicolon := by
  cases valued with
  | absent =>
    obtain ⟨last, final, other⟩ := getLast?_of_typeIn typed
    exact ⟨last, by simp [List.getLast?_append, final], other⟩
  | present behind =>
    obtain ⟨-, shown⟩ := behind
    cases shown with
    | text kind | number kind | yes kind | no kind =>
      exact ⟨_, by rw [List.getLast?_append, List.getLast?_append]; rfl, by simp [kind]⟩

theorem run_field {decl : FieldDecl} (derived : Field levels tokens decl) (taken : c.Takes tokens d)
    (orderly : Orderly c.rest) (next : EndsMember d.current.kind)
    (attached : Attached (.field decl) tokens d) :
    (fieldOrMethod levels kind).run c = .ok (some (.field decl), d) := by
  cases derived with
  | @mk vis mods name colon xs assigned semicolon _ visibility modifiers type value span marked
      modified named colonKind typed valued separated shape spans =>
    subst shape
    obtain ⟨m, more, inner, run⟩ := run_fieldOrMethod levels kind marked modified named taken orderly
    obtain ⟨c₁, colonTaken, c₂, typeTaken, c₃, valueTaken, last⟩ := by
      simpa only [Cursor.takes_append_iff] using more.uncons
    have typeOrderly := colonTaken.orderly inner
    -- What stands behind each part, from the last to the first.
    have third : EndsMember c₃.current.kind := current_of_separator separated last next
    have second : EndsType c₂.current.kind := by
      refine valueTaken.current_of _ (fun token front => ?_) (by simp_all [EndsMember, EndsType])
      cases valued with
      | absent => simp at front
      | present behind =>
        obtain ⟨equals, -⟩ := behind
        obtain rfl := Option.some.inj front
        simp [EndsType, equals]
    have ends := getLast?_of_typed (vis ++ (mods ++ [name, colon])) typed valued
    -- Without a semicolon of its own the field has none behind it that `accept` would take.
    have alone := unseparated (vis ++ (mods ++ name :: colon :: (xs ++ assigned)))
      (by simpa [Attached] using attached) (by simpa using ends)
    have field : (fieldRest levels c.current visibility modifiers name.text).run m =
        .ok (⟨visibility, modifiers, name.text, type, value, span⟩, d) := by
      rw [fieldRest, run_bind_of_ok (run_discard (colonTaken.expect colonKind)),
        run_bind_of_ok (accepts_typeExpr levels typed typeTaken typeOrderly second),
        run_bind_of_ok (accepts_defaultValue valued valueTaken (typeTaken.orderly typeOrderly)
          (by simp_all [EndsMember])),
        run_bind_of_ok (run_separator separated last alone),
        run_bind_of_ok (taken.spanFrom orderly spans (taken.head?_eq (by simp)))]
      rfl
    have other : m.current.kind ≠ .mark .leftParen := by simp [more.current_eq, colonKind]
    rw [run, run_bind_of_ok (run_isAt m _), if_neg (by simpa using other), run_bind_of_ok field]
    rfl

theorem run_method {decl : MethodDecl} (derived : Method levels tokens decl)
    (taken : c.Takes tokens d) (orderly : Orderly c.rest) (next : EndsMember d.current.kind)
    (attached : Attached (.method decl) tokens d) :
    (fieldOrMethod levels kind).run c = .ok (some (.method decl), d) := by
  cases derived with
  | @mk vis mods name list colon xs semicolon _ visibility modifiers params type span marked
      modified named listed colonKind typed separated shape spans =>
    subst shape
    obtain ⟨m, more, inner, run⟩ := run_fieldOrMethod levels kind marked modified named taken orderly
    cases listed with
    | @mk opening closing ys _ openingKind listed closingKind =>
      obtain ⟨c₃, listTaken, behind⟩ := Cursor.takes_append_iff.1 more
      obtain ⟨c₁, openingTaken, between⟩ := listTaken.uncons
      obtain ⟨c₂, paramsTaken, closingTaken⟩ := Cursor.takes_append_iff.1 between
      obtain ⟨c₄, colonTaken, others⟩ := behind.uncons
      obtain ⟨c₅, typeTaken, last⟩ := Cursor.takes_append_iff.1 others
      have paramsOrderly := openingTaken.orderly inner
      have typeOrderly := colonTaken.orderly (listTaken.orderly inner)
      have third : EndsType c₅.current.kind := by
        have ending := current_of_separator separated last next
        simp_all [EndsMember, EndsType]
      have ends := getLast?_of_typed
        (vis ++ (mods ++ name :: opening :: (ys ++ [closing, colon]))) typed .absent
      -- Where no semicolon ends the method, none stands behind it.
      have alone := unseparated (vis ++ (mods ++ name :: opening :: (ys ++ closing :: colon :: xs)))
        (by simpa [Attached] using attached) (by simpa using ends)
      have method : (methodRest levels c.current visibility modifiers name.text).run m =
          .ok (⟨visibility, modifiers, name.text, params, type, span⟩, d) := by
        rw [methodRest, run_bind_of_ok (run_discard (openingTaken.expect openingKind)),
          run_bind_of_ok (accepts_params levels listed paramsTaken paramsOrderly
            (closingTaken.current_eq ▸ closingKind)),
          run_bind_of_ok (run_discard (closingTaken.expect closingKind)),
          run_bind_of_ok (run_discard (colonTaken.expect colonKind)),
          run_bind_of_ok (accepts_typeExpr levels typed typeTaken typeOrderly third),
          run_bind_of_ok (run_separator separated last alone),
          run_bind_of_ok (taken.spanFrom orderly spans (taken.head?_eq (by simp)))]
        rfl
      have here : m.current.kind = .mark .leftParen := by rw [more.current_eq, openingKind]
      rw [run, run_bind_of_ok (run_isAt m _), if_pos (by simpa using here), run_bind_of_ok method]
      rfl

theorem isAtValue_of_head {next : Token} (marked : Visibility vis visibility)
    (modified : Star ModifierWord mods modifiers)
    (other : next.kind = .mark .colon ∨ next.kind = .mark .leftParen)
    (taken : c.Takes (vis ++ (mods ++ name :: next :: rest)) d) : isAtValue c = false := by
  cases marked with
  | present shown =>
    have plain : c.current.kind.isName = false := by
      rw [taken.current_eq]
      by_contra named
      simp [isVisibility_iff, visibility?_of_isName (by simpa using named)] at shown
    simp [isAtValue, plain]
  | absent =>
    cases modified with
    | cons first _ =>
      obtain ⟨word⟩ := first
      simp [isAtValue, taken.current_eq, word, isModifier]
    | nil =>
      -- A bare name is told from a value by the token behind it.
      obtain ⟨m, nameTaken, more⟩ := taken.uncons
      have behind : c.ahead = next := by rw [nameTaken.ahead_eq, more.current_eq]
      rcases other with kind | kind <;> simp [isAtValue, behind, kind]

theorem run_member_eq (start : isMemberStart c.current.kind = true) (other : isAtValue c = false) :
    (member levels kind).run c = (fieldOrMethod levels kind).run c := by
  have noSemicolon : c.current.kind ≠ .mark .semicolon := by
    intro here
    simp [here, isMemberStart, visibility?, TokenKind.isName] at start
  have noComma : c.current.kind ≠ .mark .comma := by
    intro here
    simp [here, isMemberStart, visibility?, TokenKind.isName] at start
  rw [member, run_bind_of_ok (run_accept_of_ne noSemicolon), if_neg (by simp)]
  by_cases enumeration : kind = .enumeration
  · rw [if_pos enumeration, enumerationMember, run_bind_of_ok (run_accept_of_ne noComma),
      if_neg (by simp), run_get_bind, if_neg (by simp [other]), enumeration]
  · rw [if_neg enumeration]

theorem run_value {span : Span} (named : IsMemberName name) (spans : Spans [name] span)
    (taken : c.Takes [name] d) (orderly : Orderly c.rest) (next : EndsMember d.current.kind) :
    (member levels .enumeration).run c = .ok (some (.value ⟨name.text, span⟩), d) := by
  have here := taken.current_eq
  have behind := taken.ahead_eq
  have value : isAtValue c = true := by
    simp_all [isAtValue, IsMemberName, EndsMember, isWord_iff, isModifier_eq_false_iff]
  have other {mark : Mark} : c.current.kind ≠ .mark mark := by
    intro marked
    simp [← here, marked, IsMemberName, isWord_iff, TokenKind.isName] at named
  rw [member, run_bind_of_ok (run_accept_of_ne other), if_neg (by simp), if_pos rfl,
    enumerationMember, run_bind_of_ok (run_accept_of_ne other), if_neg (by simp), run_get_bind,
    if_pos value]
  have read : valueDecl.run c = .ok (⟨name.text, span⟩, d) := by
    rw [valueDecl, run_bind_of_ok taken.runAdvance,
      run_bind_of_ok (taken.spanFrom orderly spans rfl)]
    rfl
  rw [run_bind_of_ok read]
  rfl

theorem run_member {decl : Member} (derived : MemberOf levels kind tokens decl)
    (taken : c.Takes tokens d) (orderly : Orderly c.rest) (next : EndsMember d.current.kind)
    (attached : Attached decl tokens d) :
    (member levels kind).run c = .ok (some decl, d) := by
  cases derived with
  | field derived =>
    have read : (fieldOrMethod levels kind).run c = _ :=
      run_field derived taken orderly next attached
    cases derived with
    | mk marked modified named colonKind _ _ _ shape =>
      subst shape
      rw [← read]
      exact run_member_eq
        (isMemberStart_of_head marked modified named.1 (taken.head?_eq (by simp)))
        (isAtValue_of_head marked modified (.inl colonKind) taken)
  | method derived =>
    have read : (fieldOrMethod levels kind).run c = _ :=
      run_method derived taken orderly next attached
    cases derived with
    | mk marked modified named listed _ _ _ shape =>
      subst shape
      -- The colon or the parenthesis behind the name keeps it from being read as a value.
      obtain ⟨openingKind, -, -⟩ := listed
      rw [← read]
      exact run_member_eq
        (isMemberStart_of_head marked modified named.1 (taken.head?_eq (by simp)))
        (isAtValue_of_head marked modified (.inr openingKind) taken)
  | value enumeration named spans =>
    subst enumeration
    exact run_value named spans taken orderly next

theorem isMemberStart_of_member {decl : Member} (derived : MemberOf levels kind tokens decl) :
    ∃ token, tokens.head? = some token ∧ isMemberStart token.kind = true := by
  have begins {vis mods rest : List Token} {name : Token} {visibility : VisibilityMark}
      {modifiers : List Modifier} (marked : Visibility vis visibility)
      (modified : Star ModifierWord mods modifiers) (named : IsWord name.kind) :
      ∃ token, (vis ++ (mods ++ name :: rest)).head? = some token ∧
        isMemberStart token.kind = true := by
    obtain ⟨token, front⟩ : ∃ token, (vis ++ (mods ++ name :: rest)).head? = some token :=
      Option.isSome_iff_exists.1 (by simp)
    exact ⟨token, front, isMemberStart_of_head marked modified named front⟩
  cases derived with
  | field derived =>
    obtain ⟨marked, modified, named, -, -, -, -, rfl, -⟩ := derived
    exact begins marked modified named.1
  | method derived =>
    obtain ⟨marked, modified, named, -, -, -, -, rfl, -⟩ := derived
    exact begins marked modified named.1
  | value enumeration named => exact ⟨_, rfl, by simp [isMemberStart, isWord_iff.1 named.1]⟩

theorem endsMember_of_start {kind : TokenKind} (start : isMemberStart kind = true) :
    EndsMember kind ∧ kind ≠ .mark .rightBrace := by
  constructor
  · intro member
    simp only [List.mem_cons, List.not_mem_nil, or_false] at member
    rcases member with rfl | rfl | rfl | rfl | rfl <;>
      simp [isMemberStart, visibility?, TokenKind.isName] at start
  · rintro rfl
    simp [isMemberStart, visibility?, TokenKind.isName] at start

theorem endsMember_of_separator {token : Token} (separates : token.kind ∈ memberSeparators kind) :
    EndsMember token.kind ∧ token.kind ≠ .mark .rightBrace := by
  have either : token.kind = .mark .semicolon ∨ token.kind = .mark .comma := by
    unfold memberSeparators at separates
    split at separates <;> simp_all
  rcases either with here | here <;> simp [here, EndsMember]

theorem run_member_of_separator {token : Token} (separates : token.kind ∈ memberSeparators kind)
    (taken : c.Takes [token] d) : (member levels kind).run c = .ok (none, d) := by
  by_cases semicolon : token.kind = .mark .semicolon
  · rw [member, run_bind_of_ok (taken.accept semicolon)]
    rfl
  · have here : c.current.kind ≠ .mark .semicolon := taken.current_eq ▸ semicolon
    rw [member, run_bind_of_ok (run_accept_of_ne here), if_neg (by simp)]
    unfold memberSeparators at separates
    split at separates
    · next enumeration =>
      have comma : token.kind = .mark .comma := by simpa [semicolon] using separates
      rw [if_pos enumeration, enumerationMember, run_bind_of_ok (taken.accept comma)]
      rfl
    · exact absurd (by simpa using separates) semicolon

theorem attached_of_settled {ys : List Token} {decl : Member} (settled : Settled decl tokens ys)
    (taken : c.Takes ys d) (next : d.current.kind ≠ .mark .semicolon) :
    Attached decl tokens c := by
  cases decl with
  | value decl => trivial
  | field decl | method decl =>
    rcases settled with ends | other
    · exact .inl ends
    · exact .inr (taken.current_of (· ≠ .mark .semicolon) other next)

/-- Where the grammar takes a semicolon wherever it can, it derives what is read. -/
theorem run_members (region : Region) {decls : List Member}
    (derived : Members true levels kind tokens decls) (taken : c.Takes tokens d)
    (orderly : Orderly c.rest) (next : d.current.kind = .mark .rightBrace) :
    (many (.mark .rightBrace) region (member levels kind)).run c = .ok (decls, d) := by
  have rounds : ∃ found, found.filterMap id = decls ∧
      repeatWhile (manyRound (.mark .rightBrace) region (member levels kind)) c = .ok (found, d) := by
    have heads {ys : List Token} {decls : List Member} (derived : Members true levels kind ys decls)
        (token : Token) (front : ys.head? = some token) : EndsMember token.kind := by
      cases derived with
      | nil => simp at front
      | separator separates _ =>
        obtain rfl := Option.some.inj front
        exact (endsMember_of_separator separates).1
      | member first _ _ =>
        obtain ⟨head, here, start⟩ := isMemberStart_of_member first
        obtain rfl : head = token := by simpa [List.head?_append, here] using front
        exact (endsMember_of_start start).1
    induction derived generalizing c with
    | nil =>
      obtain rfl := Cursor.takes_nil_iff.1 taken
      exact ⟨[], rfl, repeatWhile_of_none (run_manyRound_of_end (.inr next))⟩
    | separator separates rest ih =>
      obtain ⟨m, here, further⟩ := taken.uncons
      obtain ⟨found, rfl, run⟩ := ih further (here.orderly orderly)
      have other := (endsMember_of_separator separates).2
      rw [← here.current_eq] at other
      have round : (manyRound (.mark .rightBrace) region (member levels kind)).run c = _ :=
        here.manyRound (by simp) other (run_member_of_separator separates here)
      exact ⟨none :: found, rfl, by
        rw [repeatWhile_of_some round (here.length_lt (by simp)), run]
        rfl⟩
    | @member xs ys first members derived rest settled ih =>
      obtain ⟨m, here, further⟩ := Cursor.takes_append_iff.1 taken
      obtain ⟨found, rfl, run⟩ := ih further (here.orderly orderly)
      obtain ⟨head, front, start⟩ := isMemberStart_of_member derived
      -- The round takes the member up to where the rest of the members begins.
      obtain ⟨tail, rfl⟩ := List.head?_eq_some_iff.mp front
      have other := (endsMember_of_start start).2
      rw [← here.current_eq] at other
      have read := run_member derived here orderly
        (further.current_of _ (heads rest) (by simp [next, EndsMember]))
        (attached_of_settled (settled rfl) further (by simp [next]))
      have round : (manyRound (.mark .rightBrace) region (member levels kind)).run c = _ :=
        here.manyRound (by simp) other read
      exact ⟨some first :: found, rfl, by
        rw [repeatWhile_of_some round (here.length_lt (by simp)), run]
        rfl⟩
  obtain ⟨found, rfl, run⟩ := rounds
  exact run_many run

end Members

end ArchDiagram.Syntax
