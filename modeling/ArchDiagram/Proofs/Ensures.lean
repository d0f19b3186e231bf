import ArchDiagram.Proofs.Progress

/-!
What a run gives and where it ends, whatever it reports on the way. `Outcome` ties what a quiet run
gives to the grammar; here nothing is assumed about the reports, and what is stated may speak of
them. `Cursor.Handled` is what a reader owes the token that it begins at.
-/

namespace ArchDiagram.Syntax

/-- Every run from a cursor that ends comes to a cursor that it can reach, with what is stated. -/
def Ensures {α : Type} (r : Reader α) (c : Cursor) (post : α → Cursor → Prop) : Prop :=
  ∀ ⦃a : α⦄ ⦃d : Cursor⦄, r.run c = .ok (a, d) → c.Reaches d ∧ post a d

namespace Ensures

variable {α β : Type} {r : Reader α} {c d : Cursor} {post : α → Cursor → Prop}

theorem of_run {a : α} (run : r.run c = .ok (a, d)) (reached : c.Reaches d) (holds : post a d) :
    Ensures r c post := by
  intro b e again
  obtain ⟨rfl, rfl⟩ := Prod.mk.inj (Except.ok.inj (run.symm.trans again))
  exact ⟨reached, holds⟩

theorem of_outcome {clean : α → Cursor → Prop} (out : Outcome r c clean) :
    Ensures r c fun _ _ => True := fun _ _ run => ⟨out.reaches run, trivial⟩

protected theorem pure {a : α} (holds : post a c) : Ensures (pure a) c post :=
  .of_run rfl .refl holds

protected theorem bind {f : α → Reader β} {middle : α → Cursor → Prop} {post : β → Cursor → Prop}
    (first : Ensures r c middle)
    (next : ∀ a m, c.Reaches m → middle a m → Ensures (f a) m post) : Ensures (r >>= f) c post := by
  intro b e run
  obtain ⟨a, m, found, rest⟩ := run_of_bind run
  obtain ⟨reached, holds⟩ := first found
  obtain ⟨further, ends⟩ := next a m reached holds rest
  exact ⟨reached.trans further, ends⟩

protected theorem ite {p : Prop} [Decidable p] {s : Reader α} (yes : p → Ensures r c post)
    (no : ¬ p → Ensures s c post) : Ensures (if p then r else s) c post := by
  by_cases holds : p
  · rw [if_pos holds]
    exact yes holds
  · rw [if_neg holds]
    exact no holds

theorem mono {strong : α → Cursor → Prop} (first : Ensures r c strong)
    (implies : ∀ a d, c.Reaches d → strong a d → post a d) : Ensures r c post := by
  intro a d run
  obtain ⟨reached, holds⟩ := first run
  exact ⟨reached, implies a d reached holds⟩

theorem current_bind {f : Token → Reader α} (next : Ensures (f c.current) c post) :
    Ensures (current >>= f) c post := next

theorem get_bind {f : Cursor → Reader α} (next : Ensures (f c) c post) :
    Ensures (get >>= f) c post := next

theorem value_bind {value : Except Fault β} {f : β → Reader α}
    (next : ∀ b, value = .ok b → Ensures (f b) c post) : Ensures (liftM value >>= f) c post := by
  cases value with
  | ok b => exact next b rfl
  | error fault =>
    intro a d run
    cases run

end Ensures

namespace Cursor

/-- The token at a cursor was taken or reported since. -/
def Handled (c d : Cursor) : Prop :=
  d.rest.length < c.rest.length ∨ ∃ error ∈ d.errors, error.position = c.current.position

theorem Handled.reaches {c m d : Cursor} (handled : c.Handled m) (reached : m.Reaches d) :
    c.Handled d := by
  rcases handled with taken | ⟨error, member, there⟩
  · exact .inl (reached.length_le.trans_lt taken)
  · exact .inr ⟨error, reached.errors_suffix.subset member, there⟩

theorem current_eq_of_reaches {c d : Cursor} (reached : c.Reaches d)
    (same : d.rest.length = c.rest.length) : d.current = c.current := by
  rw [current, current, reached.rest_suffix.eq_of_length same, reached.final_eq]

theorem Handled.after {c m d : Cursor} (handled : m.Handled d) (before : c.Reaches m)
    (reached : m.Reaches d) : c.Handled d := by
  -- Either nothing was taken up to `m`, or the token at `c` was.
  by_cases same : m.rest.length = c.rest.length
  · rw [Handled, same, current_eq_of_reaches before same] at handled
    exact handled
  · have less := before.length_le
    have more := reached.length_le
    exact .inl (by omega)

theorem handled_advance {c : Cursor} (real : c.current.kind ≠ .endOfInput) : c.Handled c.advance :=
  .inl (length_advance_lt (rest_ne_nil real))

theorem handled_report (c : Cursor) (cause : SyntaxError.Cause) :
    c.Handled (c.report cause c.current) := .inr ⟨_, List.mem_cons_self, rfl⟩

end Cursor

section Tokens

variable {c : Cursor} {kind : TokenKind}

theorem ensures_advance : Ensures advance c fun token d => token = c.current ∧ d = c.advance :=
  .of_run rfl (.advance .refl) ⟨rfl, rfl⟩

theorem ensures_take (real : c.current.kind ≠ .endOfInput) :
    Ensures (discard advance) c fun _ d => c.Handled d :=
  .of_run rfl (.advance .refl) (Cursor.handled_advance real)

theorem ensures_report (cause : SyntaxError.Cause) :
    Ensures (report cause c.current) c fun _ d => c.Handled d :=
  .of_run rfl (.report cause .refl) (c.handled_report cause)

theorem ensures_expect (real : kind ≠ .endOfInput) : Ensures (expect kind) c fun token d =>
    token = c.current ∧ c.Handled d := by
  by_cases here : c.current.kind = kind
  · exact .of_run (run_expect_of_eq here) (.advance .refl)
      ⟨rfl, Cursor.handled_advance (here ▸ real)⟩
  · exact .of_run (run_expect_of_ne here) (.report _ .refl) ⟨rfl, c.handled_report _⟩

theorem ne_end_of_isName (named : kind.isName = true) : kind ≠ .endOfInput := by
  rintro rfl
  cases named

theorem ensures_expectName : Ensures expectName c fun _ d => c.Handled d := by
  by_cases here : c.current.kind.isName = true
  · have real := ne_end_of_isName here
    exact .of_run (run_expectName_of_name here) (.advance .refl) (Cursor.handled_advance real)
  · exact .of_run (run_expectName_of_other here) (.report _ .refl) (c.handled_report _)

theorem ensures_accept (real : kind ≠ .endOfInput) : Ensures (accept kind) c fun found d =>
    found = true → d.rest.length < c.rest.length := by
  by_cases here : c.current.kind = kind
  · exact .of_run (run_accept_of_eq here) (.advance .refl) fun _ =>
      Cursor.length_advance_lt (Cursor.rest_ne_nil (here ▸ real))
  · exact .of_run (run_accept_of_ne here) .refl (by simp)

theorem Ensures.of_reaches {α : Type} {r s : Reader α} {m : Cursor} {post : α → Cursor → Prop}
    (reached : c.Reaches m) (rest : Ensures s m post) (same : r.run c = s.run m) :
    Ensures r c post := by
  intro a d run
  obtain ⟨further, holds⟩ := rest (same.symm.trans run)
  exact ⟨reached.trans further, holds⟩

theorem ensures_advance_report {α : Type} {cause : SyntaxError.Cause} {next : Token → Reader α}
    {post : α → Cursor → Prop} (rest : ∀ m, c.Reaches m → Ensures (next c.current) m post) :
    Ensures (do let token ← advance; report cause token; next token) c post :=
  have step : c.Reaches (c.advance.report cause c.current) := .reportTaken cause .refl
  .of_reaches step (rest _ step) rfl

theorem ensures_expect_report {α : Type} {cause : SyntaxError.Cause} {next : Token → Reader α}
    {post : α → Cursor → Prop} (rest : ∀ m, c.Reaches m → Ensures (next c.current) m post) :
    Ensures (do let token ← expect kind; report cause token; next token) c post := by
  by_cases here : c.current.kind = kind
  · have step : c.Reaches (c.advance.report cause c.current) := .reportTaken cause .refl
    exact .of_reaches step (rest _ step) (run_bind_of_ok (run_expect_of_eq here))
  · have step : c.Reaches ((c.report (.expected kind c.current.toLexeme) c.current).report cause
      c.current) := .report cause (.report _ .refl)
    exact .of_reaches step (rest _ step) (run_bind_of_ok (run_expect_of_ne here))

end Tokens

/-- What runs ensure one after the other, told of the list of things that they give. It is asked for
at a cursor with a property that reading keeps. -/
structure Composes {α : Type} (start : Cursor → Prop)
    (post : Cursor → List α → Cursor → Prop) : Prop where
  kept : ∀ ⦃c d : Cursor⦄, start c → c.Reaches d → start d
  nil : ∀ ⦃c d : Cursor⦄, start c → c.Reaches d → post c [] d
  append : ∀ ⦃c m d : Cursor⦄ ⦃xs ys : List α⦄, post c xs m → post m ys d → post c (xs ++ ys) d

section Repetition

variable {α : Type} {start : Cursor → Prop} {post : Cursor → List α → Cursor → Prop} {c : Cursor}

theorem Composes.skip (law : Composes start post) {m d : Cursor} {as : List α} (from_ : start c)
    (before : c.Reaches m) (holds : post c as m) (reached : m.Reaches d) : post c as d := by
  have whole := law.append holds (law.nil (law.kept from_ before) reached)
  rwa [List.append_nil] at whole

theorem Composes.present (law : Composes start post) :
    Composes start fun c (found : List (Option α)) d => post c (found.filterMap id) d where
  kept := law.kept
  nil := law.nil
  append c m d xs ys left right := by
    rw [List.filterMap_append]
    exact law.append left right

theorem Ensures.repeatWhile (law : Composes start post) {round : Reader (Option α)}
    (rounds : ∀ m, start m → Ensures round m fun found d => post m found.toList d)
    (from_ : start c) : Ensures (repeatWhile round) c (post c) := by
  intro as d run
  have loop := rounds_of_repeatWhile run
  clear run
  induction loop with
  | stop last => exact rounds _ from_ last
  | stuck last => exact rounds _ from_ last
  | next first _ ih =>
    obtain ⟨reached, holds⟩ := rounds _ from_ first
    obtain ⟨further, rest⟩ := ih (law.kept from_ reached)
    exact ⟨reached.trans further, law.append holds rest⟩

theorem Ensures.commaRound (law : Composes start post) {item : Reader α}
    (items : ∀ m, start m → Ensures item m fun a d => post m [a] d) (from_ : start c) :
    Ensures (commaRound item) c fun found d => post c found.toList d := by
  refine .bind (ensures_accept (by simp)) fun _ m reached _ => .ite (fun _ => ?_) fun _ => ?_
  · refine .bind (items m (law.kept from_ reached)) fun a d _ holds => .pure ?_
    exact law.append (law.nil from_ reached) holds
  · exact .pure (law.nil from_ reached)

theorem Ensures.separatedByCommas (law : Composes start post) {item : Reader α}
    (items : ∀ m, start m → Ensures item m fun a d => post m [a] d) (from_ : start c) :
    Ensures (separatedByCommas item) c (post c) := by
  refine .bind (items c from_) fun first m reached holds => ?_
  refine .bind (.repeatWhile law (fun _ => .commaRound law items) (law.kept from_ reached))
    fun more d _ rest => .pure ?_
  exact law.append holds rest

theorem Ensures.manyRound (law : Composes start post) {closing : TokenKind} {region : Region}
    {item : Reader (Option α)}
    (items : ∀ m, start m → Ensures item m fun found d => post m found.toList d)
    (from_ : start c) : Ensures (manyRound closing region item) c fun found d =>
      post c (found.toList.filterMap id) d := by
  -- A round that takes nothing makes up for it, which adds nothing to what is told.
  by_cases ends : c.rest = [] ∨ c.current.kind = closing
  · exact .of_run (run_manyRound_of_end ends) .refl (law.nil from_ .refl)
  · refine .of_reaches .refl ?_ (run_manyRound_of_item ends)
    refine .bind (items c from_) fun found m reached holds => .get_bind ?_
    have told : post c ((some found).toList.filterMap id) m := by
      cases found <;> exact holds
    refine .ite (fun _ => ?_) fun _ => .pure told
    refine .bind (.of_outcome (outcome_skipUnexpected region)) fun _ d further _ => .pure ?_
    exact law.skip from_ reached told further

theorem Ensures.many (law : Composes start post) {closing : TokenKind} {region : Region}
    {item : Reader (Option α)}
    (items : ∀ m, start m → Ensures item m fun found d => post m found.toList d)
    (from_ : start c) : Ensures (many closing region item) c (post c) :=
  .bind (.repeatWhile law.present (fun _ => .manyRound law items) from_) fun _ _ _ holds =>
    .pure holds

end Repetition

end ArchDiagram.Syntax
