import ArchDiagram.Proofs.Bare
import ArchDiagram.Proofs.Reading

/-!
Two runs side by side. A simulation says which tokens and which cursors stand for each other; then
readers agree if from such cursors they stop at the same fault, or give what is the same but for
spans and come to such cursors again. Spans are told apart by how each run is looked at.
-/

namespace ArchDiagram.Syntax

/-- Which tokens and cursors of two runs stand for each other, and how the spans of each run are
looked at. Only two closing marks are ever asked whether they touch. -/
structure Simulation where
  tokens : Token → Token → Prop
  cursors : Cursor → Cursor → Prop
  left : Span → Span
  right : Span → Span
  lexeme {token other : Token} : tokens token other → token.toLexeme = other.toLexeme
  current {c d : Cursor} : cursors c d → tokens c.current d.current
  following {c d : Cursor} : cursors c d → tokens c.following d.following
  rest {c d : Cursor} : cursors c d → c.rest.map (·.toLexeme) = d.rest.map (·.toLexeme)
  advance {c d : Cursor} : cursors c d → cursors c.advance d.advance
  report {c d : Cursor} {token other : Token} (cause : SyntaxError.Cause) : cursors c d →
    tokens token other → cursors (c.report cause token) (d.report cause other)
  span {c d : Cursor} {token other : Token} : cursors c d → tokens token other →
    left ⟨token.position, max c.lastStop token.position.offset⟩ =
      right ⟨other.position, max d.lastStop other.position.offset⟩
  touching {c d : Cursor} : cursors c d →
    ((c.current.kind = .mark .greater ∧ c.following.kind = .mark .greater ∧
      c.following.position.offset = c.current.stop) ↔
    (d.current.kind = .mark .greater ∧ d.following.kind = .mark .greater ∧
      d.following.position.offset = d.current.stop))

variable {sim : Simulation}

namespace Simulation

variable {c d : Cursor}

theorem length_eq (related : sim.cursors c d) : c.rest.length = d.rest.length := by
  have lengths := congrArg List.length (sim.rest related)
  rwa [List.length_map, List.length_map] at lengths

theorem isEmpty_eq (related : sim.cursors c d) : c.rest.isEmpty = d.rest.isEmpty := by
  rw [Bool.eq_iff_iff, List.isEmpty_iff_length_eq_zero, List.isEmpty_iff_length_eq_zero,
    length_eq related]

theorem kind_eq {token other : Token} (related : sim.tokens token other) :
    token.kind = other.kind := congrArg Lexeme.kind (sim.lexeme related)

theorem ahead (related : sim.cursors c d) (more : c.current.kind ≠ .endOfInput) :
    sim.tokens c.ahead d.ahead := by
  have more' : d.current.kind ≠ .endOfInput := by rwa [← kind_eq (sim.current related)]
  rw [Cursor.ahead_eq (Cursor.rest_ne_nil more), Cursor.ahead_eq (Cursor.rest_ne_nil more')]
  exact sim.following related

end Simulation

/-- Two runs that end alike: at the same fault, or with related values at related cursors. -/
inductive Results {α β : Type} (cursors : Cursor → Cursor → Prop) (rel : α → β → Prop) :
    Except Fault (α × Cursor) → Except Fault (β × Cursor) → Prop
  | error (fault : Fault) : Results cursors rel (.error fault) (.error fault)
  | ok {a : α} {b : β} {c d : Cursor} :
      rel a b → cursors c d → Results cursors rel (.ok (a, c)) (.ok (b, d))

/-- From related cursors, two readers end alike. -/
def Agree {α β : Type} (sim : Simulation) (rel : α → β → Prop) (r : Reader α) (s : Reader β) :
    Prop :=
  ∀ ⦃c d : Cursor⦄, sim.cursors c d → Results sim.cursors rel (r.run c) (s.run d)

/-- Values that are the same to someone who looks at the spans of each run in its own way. -/
def Like {α γ : Type} (sim : Simulation) (view : (Span → Span) → α → γ) (a b : α) : Prop :=
  view sim.left a = view sim.right b

namespace Agree

variable {α β γ δ : Type} {rel : α → β → Prop} {next : γ → δ → Prop} {r : Reader α} {s : Reader β}

protected theorem pure {a : α} {b : β} (related : rel a b) : Agree sim rel (pure a) (pure b) :=
  fun _ _ cursors => .ok related cursors

protected theorem bind {f : α → Reader γ} {g : β → Reader δ} (first : Agree sim rel r s)
    (more : ∀ a b, rel a b → Agree sim next (f a) (g b)) : Agree sim next (r >>= f) (s >>= g) := by
  intro c d cursors
  have ends := first cursors
  generalize left : r.run c = x at ends
  generalize right : s.run d = y at ends
  cases ends with
  | error fault =>
    rw [run_bind_of_error left, run_bind_of_error right]
    exact .error fault
  | ok related cursors =>
    rw [run_bind_of_ok left, run_bind_of_ok right]
    exact more _ _ related cursors

theorem bind_eq {r s : Reader α} {f : α → Reader γ} {g : α → Reader δ} (first : Agree sim Eq r s)
    (more : ∀ a, Agree sim next (f a) (g a)) : Agree sim next (r >>= f) (s >>= g) :=
  .bind first fun a _ same => same ▸ more a

/-- Of related tokens the readers behind may use that their lexemes are the same. -/
theorem bind_same {r s : Reader Token} {f : Token → Reader γ} {g : Token → Reader δ}
    (first : Agree sim sim.tokens r s)
    (more : ∀ lexeme here there stop other,
      sim.tokens ⟨lexeme, here, stop⟩ ⟨lexeme, there, other⟩ →
      Agree sim next (f ⟨lexeme, here, stop⟩) (g ⟨lexeme, there, other⟩)) :
    Agree sim next (r >>= f) (s >>= g) := by
  refine .bind first fun token token' same => ?_
  have lexemes := sim.lexeme same
  obtain ⟨lexeme, here, stop⟩ := token
  obtain ⟨_, there, other⟩ := token'
  obtain rfl : lexeme = _ := lexemes
  exact more lexeme here there stop other same

theorem discard (first : Agree sim rel r s) : Agree sim Eq (discard r) (discard s) :=
  Agree.bind (f := fun _ => Pure.pure ()) (g := fun _ => Pure.pure ()) first
    fun _ _ _ => .pure rfl

theorem mono {weaker : α → β → Prop} (agree : Agree sim rel r s)
    (weaken : ∀ a b, rel a b → weaker a b) : Agree sim weaker r s := by
  intro c d cursors
  have ends := agree cursors
  generalize r.run c = x at ends
  generalize s.run d = y at ends
  cases ends with
  | error fault => exact .error fault
  | ok related cursors => exact .ok (weaken _ _ related) cursors

protected theorem ite {p q : Prop} [Decidable p] [Decidable q] {r' : Reader α} {s' : Reader β}
    (same : p ↔ q) (yes : Agree sim rel r s) (no : Agree sim rel r' s') :
    Agree sim rel (if p then r else r') (if q then s else s') := by
  by_cases holds : q
  · simpa only [if_pos holds, if_pos (same.2 holds)] using yes
  · simpa only [if_neg holds, if_neg fun p => holds (same.1 p)] using no

end Agree

section Tokens

variable {kind : TokenKind}

theorem agree_get : Agree sim sim.cursors (get : Reader Cursor) (get : Reader Cursor) :=
  fun _ _ cursors => .ok cursors cursors

theorem agree_current : Agree sim sim.tokens current current :=
  fun _ _ cursors => .ok (sim.current cursors) cursors

theorem agree_advance : Agree sim sim.tokens advance advance :=
  fun _ _ cursors => .ok (sim.current cursors) (sim.advance cursors)

theorem agree_report (cause : SyntaxError.Cause) {token other : Token}
    (same : sim.tokens token other) : Agree sim Eq (report cause token) (report cause other) :=
  fun _ _ cursors => .ok rfl (sim.report cause cursors same)

theorem agree_isAt : Agree sim Eq (isAt kind) (isAt kind) :=
  .bind_same agree_current fun _ _ _ _ _ _ => .pure rfl

theorem agree_accept : Agree sim Eq (accept kind) (accept kind) :=
  .bind_eq agree_isAt fun _ => .ite .rfl (.bind_eq agree_advance.discard fun _ => .pure rfl)
    (.pure rfl)

theorem agree_expect : Agree sim sim.tokens (expect kind) (expect kind) :=
  .bind_same agree_current fun _ _ _ _ _ same =>
    .ite .rfl agree_advance (.bind_eq (agree_report _ same) fun _ => .pure same)

theorem agree_expectText : Agree sim Eq (expectText kind) (expectText kind) :=
  .bind_same agree_expect fun _ _ _ _ _ _ => .pure rfl

theorem agree_expectIdentifier : Agree sim Eq expectIdentifier expectIdentifier := agree_expectText

theorem agree_expectName : Agree sim Eq expectName expectName :=
  .bind_same agree_current fun _ _ _ _ _ same =>
    .ite .rfl (.bind_eq agree_advance.discard fun _ => .pure rfl)
      (.bind_eq (agree_report _ same) fun _ => .pure rfl)

theorem agree_skipUnexpected (region : Region) :
    Agree sim Eq (skipUnexpected region) (skipUnexpected region) :=
  .bind_same agree_current fun _ _ _ _ _ same =>
    .bind_eq (agree_report _ same) fun _ => agree_advance.discard

theorem agree_spanFrom {first other : Token} (same : sim.tokens first other) :
    Agree sim (Like sim fun f => f) (spanFrom first) (spanFrom other) :=
  fun _ _ cursors => .ok (sim.span cursors same) cursors

theorem agree_ok {α : Type} (value : Except Fault α) :
    Agree sim Eq (liftM value : Reader α) (liftM value : Reader α) := by
  intro c d cursors
  cases value with
  | error fault => exact .error fault
  | ok a => exact .ok rfl cursors

theorem nestedLength_eq (opening closing : TokenKind) {xs ys : List Token} (depth : Nat)
    (lexemes : xs.map (·.toLexeme) = ys.map (·.toLexeme)) :
    nestedLength opening closing depth xs = nestedLength opening closing depth ys := by
  induction xs generalizing ys depth with
  | nil =>
    obtain rfl := List.map_eq_nil_iff.1 lexemes.symm
    rfl
  | cons token rest ih =>
    obtain ⟨other, more, rfl, first, behind⟩ := List.map_eq_cons_iff.1 lexemes.symm
    have kinds : other.kind = token.kind := congrArg Lexeme.kind first
    unfold nestedLength
    rw [kinds]
    cases depth with
    | zero => simp only [ih _ behind.symm]
    | succ depth => simp only [ih _ behind.symm]

theorem agree_skipNested (opening closing : TokenKind) :
    Agree sim Eq (skipNested opening closing) (skipNested opening closing) := by
  intro c d cursors
  have both (n : Nat) : sim.cursors (n.repeat Cursor.advance c) (n.repeat Cursor.advance d) := by
    induction n with
    | zero => exact cursors
    | succ n ih => exact sim.advance ih
  have lengths := nestedLength_eq opening closing 0 (sim.rest cursors)
  refine .ok rfl ?_
  change sim.cursors ((nestedLength opening closing 0 c.rest).repeat Cursor.advance c) _
  rw [lengths]
  exact both _

end Tokens

theorem Agree.spanned {γ δ : Type} {next : γ → δ → Prop} {first other : Token} {f : Span → γ}
    {g : Span → δ} (same : sim.tokens first other)
    (related : ∀ here there, sim.left here = sim.right there → next (f here) (g there)) :
    Agree sim next (spanFrom first >>= fun span => pure (f span))
      (spanFrom other >>= fun span => pure (g span)) :=
  .bind (agree_spanFrom same) fun here there span => .pure (related here there span)

section Repetition

variable {α γ : Type} {view : (Span → Span) → α → γ}

theorem Agree.repeatWhile {round other : Reader (Option α)}
    (rounds : Agree sim (Like sim fun f => Option.map (view f)) round other) :
    Agree sim (Like sim fun f => List.map (view f)) (repeatWhile round) (repeatWhile other) := by
  intro c d cursors
  change Results _ _ (Syntax.repeatWhile round c) (Syntax.repeatWhile other d)
  induction length : c.rest.length using Nat.strong_induction_on generalizing c d with
  | _ length ih =>
    have ends := rounds cursors
    generalize left : round.run c = x at ends
    generalize right : other.run d = y at ends
    cases ends with
    | error fault =>
      rw [repeatWhile_of_error left, repeatWhile_of_error right]
      exact .error fault
    | @ok a b e e' related cursors' =>
      rcases a with _ | a <;> rcases b with _ | b
      · rw [repeatWhile_of_none left, repeatWhile_of_none right]
        exact .ok rfl cursors'
      · simp [Like] at related
      · simp [Like] at related
      have same : view sim.left a = view sim.right b := Option.some.inj related
      have before := Simulation.length_eq cursors
      have after := Simulation.length_eq cursors'
      -- Tokens are counted, not measured, so both loops go on or neither does.
      by_cases less : e.rest.length < c.rest.length
      · rw [repeatWhile_of_some left less, repeatWhile_of_some right (by rwa [← after, ← before])]
        have rest := ih e.rest.length (length ▸ less) cursors' rfl
        generalize Syntax.repeatWhile round e = x at rest
        generalize Syntax.repeatWhile other e' = y at rest
        cases rest with
        | error fault => exact .error fault
        | ok more cursors'' => exact .ok (congrArg₂ List.cons same more) cursors''
      · rw [repeatWhile_of_stuck left less, repeatWhile_of_stuck right (by rwa [← after, ← before])]
        exact .ok (congrArg (fun a => [a]) same) cursors'

theorem Agree.seen {r s : Reader α} (agree : Agree sim Eq r s) :
    Agree sim (Like sim fun _ => id) r s := agree

theorem Agree.seen_option {r s : Reader (Option α)} (agree : Agree sim Eq r s) :
    Agree sim (Like sim fun _ => Option.map id) r s :=
  agree.mono fun _ _ same => congrArg (Option.map id) same

theorem Agree.eq_of_map {r s : Reader (List α)}
    (agree : Agree sim (Like sim fun _ => List.map id) r s) : Agree sim Eq r s :=
  agree.mono fun _ _ same => by simpa only [Like, List.map_id_fun, id_eq] using same

theorem Agree.commaRound {item other : Reader α} (items : Agree sim (Like sim view) item other) :
    Agree sim (Like sim fun f => Option.map (view f)) (commaRound item) (commaRound other) :=
  .bind_eq agree_accept fun _ =>
    .ite .rfl (.bind items fun _ _ same => .pure (congrArg some same)) (.pure rfl)

theorem Agree.separatedByCommas {item other : Reader α}
    (items : Agree sim (Like sim view) item other) :
    Agree sim (Like sim fun f => List.map (view f)) (separatedByCommas item)
      (separatedByCommas other) :=
  .bind items fun _ _ first => .bind items.commaRound.repeatWhile fun _ _ more =>
    .pure (congrArg₂ List.cons first more)

theorem Agree.manyRound {closing : TokenKind} {region : Region} {item other : Reader (Option α)}
    (items : Agree sim (Like sim fun f => Option.map (view f)) item other) :
    Agree sim (Like sim fun f => Option.map (Option.map (view f))) (manyRound closing region item)
      (manyRound closing region other) := by
  refine .bind agree_get fun before before' start => ?_
  rw [Simulation.isEmpty_eq start, Simulation.kind_eq (sim.current start),
    Simulation.length_eq start]
  refine .ite .rfl (.pure rfl) (.bind items fun _ _ same => .bind agree_get ?_)
  intro now now' later
  rw [Simulation.length_eq later]
  refine .ite .rfl ?_ (.pure (congrArg some same))
  exact .bind_eq (agree_skipUnexpected region) fun _ => .pure (congrArg some same)

theorem Agree.many {closing : TokenKind} {region : Region} {item other : Reader (Option α)}
    (items : Agree sim (Like sim fun f => Option.map (view f)) item other) :
    Agree sim (Like sim fun f => List.map (view f)) (many closing region item)
      (many closing region other) := by
  refine .bind items.manyRound.repeatWhile fun found found' same => .pure ?_
  have kept (f : Span → Span) (as : List (Option α)) :
      (as.filterMap id).map (view f) = (as.map (Option.map (view f))).filterMap id := by
    simp [List.map_filterMap, List.filterMap_map]
  rw [Like, kept, kept]
  exact congrArg (List.filterMap id) same

end Repetition

end ArchDiagram.Syntax
