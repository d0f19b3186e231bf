import ArchDiagram.Syntax.Parser
import Mathlib.Data.List.Infix

/-!
What reading does to a cursor. A reader takes tokens and reports errors and does nothing else, so
the cursors that it can come to are given by one relation, `Cursor.Reaches`. Where nothing was
reported, `Cursor.Takes` names the tokens that lie between two cursors. `Outcome` joins both: it is
what the grammar's readers are specified with, and it composes along `>>=`.
-/

namespace ArchDiagram.Syntax

namespace Cursor

/-- The cursors that reading can come to. An error is reported at the token at the cursor, or at a
token that is taken at the same time. -/
inductive Reaches (start : Cursor) : Cursor → Prop
  | refl : Reaches start start
  | advance {c : Cursor} : Reaches start c → Reaches start c.advance
  | report {c : Cursor} (cause : SyntaxError.Cause) :
      Reaches start c → Reaches start (c.report cause c.current)
  | reportTaken {c : Cursor} (cause : SyntaxError.Cause) :
      Reaches start c → Reaches start (c.advance.report cause c.current)

theorem Reaches.trans {a b c : Cursor} (first : a.Reaches b) (second : b.Reaches c) :
    a.Reaches c := by
  induction second with
  | refl => exact first
  | advance _ ih => exact ih.advance
  | report cause _ ih => exact ih.report cause
  | reportTaken cause _ ih => exact ih.reportTaken cause

theorem rest_advance (c : Cursor) : c.advance.rest = c.rest.tail := by
  unfold advance
  split <;> simp_all

@[simp] theorem final_advance (c : Cursor) : c.advance.final = c.final := by
  unfold advance
  split <;> rfl

@[simp] theorem errors_advance (c : Cursor) : c.advance.errors = c.errors := by
  unfold advance
  split <;> rfl

theorem following_eq (c : Cursor) : c.following = c.advance.current := by
  simp [following, current, rest_advance]

theorem Reaches.final_eq {c d : Cursor} (reached : c.Reaches d) : d.final = c.final := by
  induction reached with
  | refl => rfl
  | advance _ ih => simpa using ih
  | report cause _ ih => exact ih
  | reportTaken cause _ ih => simpa [Cursor.report] using ih

theorem Reaches.rest_suffix {c d : Cursor} (reached : c.Reaches d) : d.rest <:+ c.rest := by
  have tail (e : Cursor) : e.advance.rest <:+ e.rest := by
    rw [rest_advance]
    exact List.tail_suffix e.rest
  induction reached with
  | refl => exact List.suffix_refl _
  | advance _ ih => exact (tail _).trans ih
  | report cause _ ih => exact ih
  | reportTaken cause _ ih => exact (tail _).trans ih

theorem Reaches.errors_suffix {c d : Cursor} (reached : c.Reaches d) : c.errors <:+ d.errors := by
  induction reached with
  | refl => exact List.suffix_refl _
  | advance _ ih => simpa using ih
  | report cause _ ih => exact ih.trans (List.suffix_cons _ _)
  | reportTaken cause _ ih =>
    refine ih.trans ?_
    simp [Cursor.report]

theorem Reaches.length_le {c d : Cursor} (reached : c.Reaches d) : d.rest.length ≤ c.rest.length :=
  reached.rest_suffix.length_le

/-- Before the end of the input, looking ahead shows the token that is read next but one. -/
theorem ahead_eq {c : Cursor} (more : c.rest ≠ []) : c.ahead = c.following := by
  unfold ahead
  split <;> simp_all

theorem Reaches.errors_eq {a b c : Cursor} (first : a.Reaches b) (second : b.Reaches c)
    (quiet : c.errors = a.errors) : b.errors = a.errors := by
  have before := first.errors_suffix.length_le
  have after := second.errors_suffix.length_le
  rw [quiet] at after
  exact (first.errors_suffix.eq_of_length (by omega)).symm

theorem rest_ne_nil {c : Cursor} (kind : c.current.kind ≠ .endOfInput) : c.rest ≠ [] := by
  -- Only the closing token has the kind of the end, so any other kind is that of a token to take.
  intro empty
  exact kind (by simp [current, empty, c.kind_final])

theorem ahead_of_kind {c : Cursor} (kind : c.current.kind ≠ .endOfInput) :
    c.ahead = c.advance.current := by rw [ahead_eq (rest_ne_nil kind), following_eq]

theorem touching_iff (c : Cursor) :
    (c.current.kind = .mark .greater ∧ c.ahead.kind = .mark .greater ∧
      c.ahead.position.offset = c.current.stop) ↔
    (c.current.kind = .mark .greater ∧ c.following.kind = .mark .greater ∧
      c.following.position.offset = c.current.stop) := by
  refine and_congr_right fun here => ?_
  rw [ahead_eq (rest_ne_nil (by simp [here]))]

theorem rest_eq_cons {c : Cursor} (more : c.rest ≠ []) :
    c.rest = c.current :: c.advance.rest := by
  rw [rest_advance]
  cases rest : c.rest with
  | nil => exact absurd rest more
  | cons token tokens => simp [current, rest]

theorem lastStop_advance {c : Cursor} (more : c.rest ≠ []) :
    c.advance.lastStop = c.current.stop := by
  cases rest : c.rest with
  | nil => exact absurd rest more
  | cons token tokens => simp [advance, current, rest]

/-- Reading takes the given tokens and reports nothing. -/
inductive Takes : Cursor → List Token → Cursor → Prop
  | nil (c : Cursor) : Takes c [] c
  | cons {c d : Cursor} {token : Token} {tokens : List Token} :
      c.rest = token :: c.advance.rest → Takes c.advance tokens d → Takes c (token :: tokens) d

@[simp] theorem takes_nil_iff {c d : Cursor} : c.Takes [] d ↔ d = c := by
  constructor
  · intro taken
    cases taken
    rfl
  · rintro rfl
    exact .nil _

@[simp] theorem takes_cons_iff {c d : Cursor} {token : Token} {tokens : List Token} :
    c.Takes (token :: tokens) d ↔
      c.rest = token :: c.advance.rest ∧ c.advance.Takes tokens d := by
  constructor
  · rintro (_ | ⟨front, taken⟩)
    exact ⟨front, taken⟩
  · rintro ⟨front, taken⟩
    exact .cons front taken

@[simp] theorem takes_append_iff {c d : Cursor} {xs ys : List Token} :
    c.Takes (xs ++ ys) d ↔ ∃ m, c.Takes xs m ∧ m.Takes ys d := by
  induction xs generalizing c with
  | nil => simp
  | cons token tokens ih => simp [ih, and_assoc]

theorem Takes.append {c m d : Cursor} {xs ys : List Token} (first : c.Takes xs m)
    (second : m.Takes ys d) : c.Takes (xs ++ ys) d := takes_append_iff.2 ⟨m, first, second⟩

theorem takes_current {c : Cursor} (more : c.rest ≠ []) : c.Takes [c.current] c.advance := by
  simpa using rest_eq_cons more

theorem Takes.rest_eq {c d : Cursor} {tokens : List Token} (taken : c.Takes tokens d) :
    c.rest = tokens ++ d.rest := by
  induction taken with
  | nil c => rfl
  | cons front _ ih => rw [front, ih, List.cons_append]

theorem Takes.final_eq {c d : Cursor} {tokens : List Token} (taken : c.Takes tokens d) :
    d.final = c.final := by
  induction taken with
  | nil c => rfl
  | cons _ _ ih => simpa using ih

theorem Takes.errors_eq {c d : Cursor} {tokens : List Token} (taken : c.Takes tokens d) :
    d.errors = c.errors := by
  induction taken with
  | nil c => rfl
  | cons _ _ ih => simpa using ih

theorem Takes.reaches {c d : Cursor} {tokens : List Token} (taken : c.Takes tokens d) :
    c.Reaches d := by
  induction taken with
  | nil c => exact .refl
  | cons _ _ ih => exact Reaches.advance .refl |>.trans ih

theorem Takes.current_eq {c d : Cursor} {token : Token} {tokens : List Token}
    (taken : c.Takes (token :: tokens) d) : c.current = token := by
  simp [current, taken.rest_eq]

theorem Takes.length_lt {c d : Cursor} {tokens : List Token} (taken : c.Takes tokens d)
    (some_ : tokens ≠ []) : d.rest.length < c.rest.length := by
  have positive := List.length_pos_iff.2 some_
  rw [taken.rest_eq, List.length_append]
  omega

theorem Takes.lastStop_eq {c d : Cursor} {tokens : List Token} {last : Token}
    (taken : c.Takes tokens d) (final : tokens.getLast? = some last) :
    d.lastStop = last.stop := by
  induction taken with
  | nil c => simp at final
  | @cons c d token tokens front taken ih =>
    cases tokens with
    | nil =>
      obtain rfl := takes_nil_iff.1 taken
      have found : token = last := by simpa using final
      have more : c.rest ≠ [] := by simp [front]
      have first : c.current = token := (Takes.cons front (.nil _)).current_eq
      rw [lastStop_advance more, first, found]
    | cons next tokens => exact ih (by simpa using final)

theorem takes_rest (c : Cursor) : ∃ d, c.Takes c.rest d ∧ d.rest = [] := by
  generalize whole : c.rest = tokens
  induction tokens generalizing c with
  | nil => exact ⟨c, .nil c, whole⟩
  | cons token tokens ih =>
    have behind : c.advance.rest = tokens := by rw [rest_advance, whole, List.tail_cons]
    obtain ⟨d, taken, ends⟩ := ih c.advance behind
    exact ⟨d, .cons (by rw [whole, behind]) taken, ends⟩

theorem takes_front {c : Cursor} {xs ys : List Token} (whole : c.rest = xs ++ ys) :
    ∃ d, c.Takes xs d ∧ d.rest = ys := by
  obtain ⟨last, taken, ends⟩ := c.takes_rest
  rw [whole] at taken
  obtain ⟨d, front, behind⟩ := takes_append_iff.1 taken
  refine ⟨d, front, ?_⟩
  rw [behind.rest_eq, ends, List.append_nil]

end Cursor

/-- Things read one behind the other. -/
inductive Chain {α : Type} (reads : Cursor → α → Cursor → Prop) :
    Cursor → List α → Cursor → Prop
  | nil (c : Cursor) : Chain reads c [] c
  | cons {c m d : Cursor} {a : α} {as : List α} :
      reads c a m → Chain reads m as d → Chain reads c (a :: as) d

/-- A token whose text does not stand for what its kind announces. -/
def Faulty (token : Token) (fault : Fault) : Prop :=
  (token.kind = .number ∧
    (numberValue token.text = .error fault ∨ decimalValue token.text = .error fault)) ∨
  (token.kind.isRelation ∧ relationOperator token.text = .error fault)

theorem ok_of_toOption_map {α β : Type} {result : Except Fault α} {f : α → β} {value : β}
    (shown : result.toOption.map f = some value) : ∃ a, result = .ok a ∧ f a = value := by
  cases result with
  | error fault => cases shown
  | ok a => exact ⟨a, rfl, Option.some.inj shown⟩

section Run

variable {α β : Type} {r : Reader α} {f : α → Reader β} {c d : Cursor} {kind : TokenKind}

theorem run_bind_of_ok {a : α} (run : r.run c = .ok (a, d)) :
    (r >>= f).run c = (f a).run d := by
  rw [StateT.run_bind, run]
  rfl

theorem run_bind_of_error {fault : Fault} (run : r.run c = .error fault) :
    (r >>= f).run c = .error fault := by
  rw [StateT.run_bind, run]
  rfl

theorem run_current_bind {f : Token → Reader α} : (current >>= f).run c = (f c.current).run c := rfl

theorem run_ok (value : α) :
    (liftM (Except.ok value : Except Fault α) : Reader α).run c = .ok (value, c) := rfl

theorem run_get_bind {f : Cursor → Reader α} : (get >>= f).run c = (f c).run c := rfl

theorem run_of_bind {b : β} (run : (r >>= f).run c = .ok (b, d)) :
    ∃ a m, r.run c = .ok (a, m) ∧ (f a).run m = .ok (b, d) := by
  cases found : r.run c with
  | error fault =>
    rw [run_bind_of_error found] at run
    cases run
  | ok read =>
    rw [run_bind_of_ok found] at run
    exact ⟨read.1, read.2, rfl, run⟩

theorem run_of_bind_pure {g : α → β} {b : β}
    (run : (r >>= fun a => pure (g a)).run c = .ok (b, d)) :
    ∃ a, r.run c = .ok (a, d) ∧ b = g a := by
  obtain ⟨a, m, found, ends⟩ := run_of_bind run
  obtain ⟨rfl, rfl⟩ := Prod.mk.inj (Except.ok.inj ends)
  exact ⟨a, found, rfl⟩

theorem run_discard {a : α} (run : r.run c = .ok (a, d)) : (discard r).run c = .ok ((), d) := by
  change (r >>= fun _ => pure ()).run c = _
  rw [run_bind_of_ok run]
  rfl

theorem run_advance : advance.run c = .ok (c.current, c.advance) := rfl

theorem run_accept_of_eq (here : c.current.kind = kind) :
    (accept kind).run c = .ok (true, c.advance) := by
  have found : (isAt kind).run c = .ok (true, c) := by
    change Except.ok (decide (c.current.kind = kind), c) = _
    simp [here]
  rw [accept, run_bind_of_ok found]
  rfl

theorem run_accept_of_ne (here : c.current.kind ≠ kind) :
    (accept kind).run c = .ok (false, c) := by
  have found : (isAt kind).run c = .ok (false, c) := by
    change Except.ok (decide (c.current.kind = kind), c) = _
    simp [here]
  rw [accept, run_bind_of_ok found]
  rfl

theorem run_expect_of_eq (here : c.current.kind = kind) :
    (expect kind).run c = .ok (c.current, c.advance) := by
  change (if c.current.kind = kind then advance else _ : Reader Token).run c = _
  rw [if_pos here]
  rfl

theorem run_expect_of_ne (here : c.current.kind ≠ kind) :
    (expect kind).run c =
      .ok (c.current, c.report (.expected kind c.current.toLexeme) c.current) := by
  change (if c.current.kind = kind then _ else _ : Reader Token).run c = _
  rw [if_neg here]
  rfl

theorem run_expectText_of_eq (here : c.current.kind = kind) :
    (expectText kind).run c = .ok (c.current.text, c.advance) := by
  rw [expectText, run_bind_of_ok (run_expect_of_eq here), if_pos here]
  rfl

theorem run_expectText_of_ne (here : c.current.kind ≠ kind) :
    (expectText kind).run c =
      .ok ("", c.report (.expected kind c.current.toLexeme) c.current) := by
  rw [expectText, run_bind_of_ok (run_expect_of_ne here), if_neg here]
  rfl

theorem run_expectName_of_name (here : c.current.kind.isName = true) :
    expectName.run c = .ok (c.current.text, c.advance) := by
  change (if c.current.kind.isName then _ else _ : Reader String).run c = _
  rw [if_pos here]
  rfl

theorem run_expectName_of_other (here : ¬ c.current.kind.isName = true) :
    expectName.run c = .ok ("", c.report (.expectedName c.current.toLexeme) c.current) := by
  change (if c.current.kind.isName then _ else _ : Reader String).run c = _
  rw [if_neg here]
  rfl

theorem run_skipUnexpected (region : Region) : (skipUnexpected region).run c =
    .ok ((), (c.report (.unexpectedIn region c.current.text) c.current).advance) := rfl

theorem repeatWhile_of_error {round : Reader (Option α)} {fault : Fault}
    (run : round.run c = .error fault) : repeatWhile round c = .error fault := by
  rw [repeatWhile, run]

theorem repeatWhile_of_none {round : Reader (Option α)} (run : round.run c = .ok (none, d)) :
    repeatWhile round c = .ok ([], d) := by
  rw [repeatWhile, run]

theorem repeatWhile_of_some {round : Reader (Option α)} {a : α}
    (run : round.run c = .ok (some a, d)) (less : d.rest.length < c.rest.length) :
    repeatWhile round c = (repeatWhile round d).map fun (as, e) => (a :: as, e) := by
  rw [repeatWhile, run]
  simp only [less, ↓reduceIte]

theorem repeatWhile_of_stuck {round : Reader (Option α)} {a : α}
    (run : round.run c = .ok (some a, d)) (stuck : ¬ d.rest.length < c.rest.length) :
    repeatWhile round c = .ok ([a], d) := by
  rw [repeatWhile, run]
  simp only [stuck, ↓reduceIte]

end Run

/-- Reading from a cursor stops at a faulty token, or comes to a cursor that it can reach; if it
reported nothing on the way, what it gives and where it ends are as stated. -/
def Outcome {α : Type} (r : Reader α) (c : Cursor) (clean : α → Cursor → Prop) : Prop :=
  match r.run c with
  | .ok (a, d) => c.Reaches d ∧ (d.errors = c.errors → clean a d)
  | .error fault => ∃ d, c.Reaches d ∧ Faulty d.current fault

namespace Outcome

variable {α β : Type} {r : Reader α} {c d : Cursor}

theorem reaches {clean : α → Cursor → Prop} (out : Outcome r c clean) {a : α}
    (run : r.run c = .ok (a, d)) : c.Reaches d := by
  simp only [Outcome, run] at out
  exact out.1

theorem clean {clean : α → Cursor → Prop} (out : Outcome r c clean) {a : α}
    (run : r.run c = .ok (a, d)) (quiet : d.errors = c.errors) : clean a d := by
  simp only [Outcome, run] at out
  exact out.2 quiet

theorem faulty {clean : α → Cursor → Prop} (out : Outcome r c clean) {fault : Fault}
    (run : r.run c = .error fault) : ∃ d, c.Reaches d ∧ Faulty d.current fault := by
  simpa only [Outcome, run] using out

theorem of_run {clean : α → Cursor → Prop} {a : α} (run : r.run c = .ok (a, d))
    (reached : c.Reaches d) (quiet : d.errors = c.errors → clean a d) : Outcome r c clean := by
  simp only [Outcome, run]
  exact ⟨reached, quiet⟩

theorem of_fault {clean : α → Cursor → Prop} {fault : Fault} (run : r.run c = .error fault)
    (reached : c.Reaches d) (faulty : Faulty d.current fault) : Outcome r c clean := by
  simp only [Outcome, run]
  exact ⟨d, reached, faulty⟩

theorem of_loud {clean : α → Cursor → Prop} {s : Reader α} (same : r.run c = s.run d)
    (reached : c.Reaches d) (loud : d.errors ≠ c.errors) (out : Outcome s d fun _ _ => True) :
    Outcome r c clean := by
  cases run : s.run d with
  | error fault =>
    obtain ⟨e, further, faulty⟩ := out.faulty run
    exact of_fault (same.trans run) (reached.trans further) faulty
  | ok found =>
    have further := out.reaches run
    exact of_run (same.trans run) (reached.trans further) fun quiet =>
      absurd (reached.errors_eq further quiet) loud

theorem of_takes {clean : α → Cursor → Prop} {s : Reader α} {tokens : List Token}
    (same : r.run c = s.run d) (taken : c.Takes tokens d) (out : Outcome s d clean) :
    Outcome r c clean := by
  cases run : s.run d with
  | error fault =>
    obtain ⟨e, further, faulty⟩ := out.faulty run
    exact of_fault (same.trans run) (taken.reaches.trans further) faulty
  | ok found =>
    exact of_run (same.trans run) (taken.reaches.trans (out.reaches run)) fun quiet =>
      out.clean run (quiet.trans taken.errors_eq.symm)

theorem mono {weak strong : α → Cursor → Prop} (out : Outcome r c strong)
    (implies : ∀ a d, strong a d → weak a d) : Outcome r c weak := by
  cases run : r.run c with
  | error fault =>
    obtain ⟨d, reached, faulty⟩ := out.faulty run
    exact of_fault run reached faulty
  | ok found =>
    exact of_run run (out.reaches run) fun quiet => implies _ _ (out.clean run quiet)

protected theorem pure {clean : α → Cursor → Prop} {a : α} (holds : clean a c) :
    Outcome (pure a) c clean := of_run rfl .refl fun _ => holds

protected theorem bind {f : α → Reader β} {middle : α → Cursor → Prop}
    {clean : β → Cursor → Prop} (first : Outcome r c middle)
    (next : ∀ a d, Outcome (f a) d fun b e => middle a d → clean b e) :
    Outcome (r >>= f) c clean := by
  cases run : r.run c with
  | error fault =>
    obtain ⟨d, reached, faulty⟩ := first.faulty run
    exact of_fault (run_bind_of_error run) reached faulty
  | ok found =>
    obtain ⟨a, d⟩ := found
    have reached := first.reaches run
    cases rest : (f a).run d with
    | error fault =>
      obtain ⟨e, further, faulty⟩ := (next a d).faulty rest
      exact of_fault ((run_bind_of_ok run).trans rest) (reached.trans further) faulty
    | ok found =>
      obtain ⟨b, e⟩ := found
      have further := (next a d).reaches rest
      refine of_run ((run_bind_of_ok run).trans rest) (reached.trans further) fun quiet => ?_
      -- Reports only grow, so a run without one has none in its first part.
      have before := reached.errors_eq further quiet
      exact (next a d).clean rest (quiet.trans before.symm) (first.clean run before)

theorem discard {clean : α → Cursor → Prop} (out : Outcome r c clean) :
    Outcome (discard r) c fun _ d => ∃ a, clean a d :=
  Outcome.bind (f := fun _ => Pure.pure ()) out fun a _ => .pure fun holds => ⟨a, holds⟩

protected theorem ite {p : Prop} [Decidable p] {s : Reader α} {clean : α → Cursor → Prop}
    (yes : p → Outcome r c clean) (no : ¬ p → Outcome s c clean) :
    Outcome (if p then r else s) c clean := by
  by_cases holds : p
  · simpa only [if_pos holds] using yes holds
  · simpa only [if_neg holds] using no holds

end Outcome

section Tokens

variable {α : Type} {c : Cursor} {kind : TokenKind}

theorem outcome_current_bind {f : Token → Reader α} {clean : α → Cursor → Prop}
    (out : Outcome (f c.current) c clean) : Outcome (current >>= f) c clean := out

theorem outcome_get_bind {f : Cursor → Reader α} {clean : α → Cursor → Prop}
    (out : Outcome (f c) c clean) : Outcome (get >>= f) c clean := out

theorem outcome_ok (value : α) :
    Outcome (liftM (Except.ok value : Except Fault α) : Reader α) c fun a d =>
    a = value ∧ d = c := .of_run rfl .refl fun _ => ⟨rfl, rfl⟩

theorem outcome_advance : Outcome advance c fun token d => token = c.current ∧ d = c.advance :=
  .of_run rfl (.advance .refl) fun _ => ⟨rfl, rfl⟩

theorem outcome_take (real : c.current.kind ≠ .endOfInput) :
    Outcome (discard advance) c fun _ d => c.Takes [c.current] d :=
  .of_run rfl (.advance .refl) fun _ => Cursor.takes_current (Cursor.rest_ne_nil real)

theorem errors_report_ne (c : Cursor) (cause : SyntaxError.Cause) (token : Token) :
    (c.report cause token).errors ≠ c.errors := List.cons_ne_self _ _

theorem outcome_report (cause : SyntaxError.Cause) :
    Outcome (report cause c.current) c fun _ _ => False :=
  .of_run rfl (.report cause .refl) fun quiet => errors_report_ne _ _ _ quiet

theorem outcome_isAt : Outcome (isAt kind) c fun found d =>
    (found = true ↔ c.current.kind = kind) ∧ d = c :=
  .of_run rfl .refl fun _ => ⟨by simp, rfl⟩

theorem outcome_accept (real : kind ≠ .endOfInput) : Outcome (accept kind) c fun found d =>
    (found = true ∧ c.current.kind = kind ∧ c.Takes [c.current] d) ∨
    (found = false ∧ c.current.kind ≠ kind ∧ d = c) := by
  by_cases here : c.current.kind = kind
  · have more : c.rest ≠ [] := Cursor.rest_ne_nil (here ▸ real)
    exact .of_run (run_accept_of_eq here) (.advance .refl) fun _ =>
      .inl ⟨rfl, here, Cursor.takes_current more⟩
  · exact .of_run (run_accept_of_ne here) .refl fun _ => .inr ⟨rfl, here, rfl⟩

theorem outcome_expect (real : kind ≠ .endOfInput) : Outcome (expect kind) c fun token d =>
    token = c.current ∧ token.kind = kind ∧ c.Takes [token] d := by
  by_cases here : c.current.kind = kind
  · have more : c.rest ≠ [] := Cursor.rest_ne_nil (here ▸ real)
    exact .of_run (run_expect_of_eq here) (.advance .refl) fun _ =>
      ⟨rfl, here, Cursor.takes_current more⟩
  · exact .of_run (run_expect_of_ne here) (.report _ .refl) fun quiet =>
      absurd quiet (errors_report_ne _ _ _)

theorem outcome_expectText (real : kind ≠ .endOfInput) : Outcome (expectText kind) c fun text d =>
    ∃ token, token.kind = kind ∧ text = token.text ∧ c.Takes [token] d := by
  by_cases here : c.current.kind = kind
  · have more : c.rest ≠ [] := Cursor.rest_ne_nil (here ▸ real)
    exact .of_run (run_expectText_of_eq here) (.advance .refl) fun _ =>
      ⟨_, here, rfl, Cursor.takes_current more⟩
  · exact .of_run (run_expectText_of_ne here) (.report _ .refl) fun quiet =>
      absurd quiet (errors_report_ne _ _ _)

theorem outcome_expectName : Outcome expectName c fun text d =>
    ∃ token, token.kind.isName = true ∧ text = token.text ∧ c.Takes [token] d := by
  by_cases here : c.current.kind.isName = true
  · have more : c.rest ≠ [] := Cursor.rest_ne_nil fun ends => by simp [ends, TokenKind.isName] at here
    exact .of_run (run_expectName_of_name here) (.advance .refl) fun _ =>
      ⟨_, here, rfl, Cursor.takes_current more⟩
  · exact .of_run (run_expectName_of_other here) (.report _ .refl) fun quiet =>
      absurd quiet (errors_report_ne _ _ _)

theorem outcome_skipUnexpected (region : Region) :
    Outcome (skipUnexpected region) c fun _ _ => False :=
  outcome_current_bind <| .bind (outcome_report _) fun _ _ =>
    .mono (.discard outcome_advance) fun _ _ _ never => never

theorem outcome_spanFrom (first : Token) : Outcome (spanFrom first) c fun span d =>
    span = ⟨first.position, max c.lastStop first.position.offset⟩ ∧ d = c :=
  .of_run rfl .refl fun _ => ⟨rfl, rfl⟩

theorem outcome_skipNested (opening closing : TokenKind) :
    Outcome (skipNested opening closing) c fun _ _ => True := by
  have taken (n : Nat) (d : Cursor) : d.Reaches (n.repeat Cursor.advance d) := by
    induction n with
    | zero => exact .refl
    | succ n ih => exact ih.advance
  exact .of_run rfl (taken _ c) fun _ => trivial

end Tokens

/-- Every round that gives something takes a token. -/
def TakesToken {α : Type} (round : Reader (Option α)) : Prop :=
  ∀ c a d, round.run c = .ok (some a, d) → d.rest.length < c.rest.length

/-- The rounds of a loop that ends, each from where the one before it ended. A round that takes no
token is the last one. -/
inductive Rounds {α : Type} (round : Reader (Option α)) : Cursor → List α → Cursor → Prop
  | stop {c d : Cursor} : round.run c = .ok (none, d) → Rounds round c [] d
  | stuck {c d : Cursor} {a : α} : round.run c = .ok (some a, d) →
      ¬ d.rest.length < c.rest.length → Rounds round c [a] d
  | next {c m d : Cursor} {a : α} {as : List α} : round.run c = .ok (some a, m) →
      Rounds round m as d → Rounds round c (a :: as) d

theorem rounds_of_repeatWhile {α : Type} {round : Reader (Option α)} {c d : Cursor} {as : List α}
    (run : repeatWhile round c = .ok (as, d)) : Rounds round c as d := by
  -- On the tokens that are left, as the loop itself ends.
  induction length : c.rest.length using Nat.strong_induction_on generalizing c as with
  | _ length ih =>
    cases first : round.run c with
    | error fault =>
      rw [repeatWhile_of_error first] at run
      cases run
    | ok found =>
      obtain ⟨a?, m⟩ := found
      cases a? with
      | none =>
        rw [repeatWhile_of_none first] at run
        obtain ⟨rfl, rfl⟩ := Prod.mk.inj (Except.ok.inj run)
        exact .stop first
      | some a =>
        by_cases less : m.rest.length < c.rest.length
        · rw [repeatWhile_of_some first less] at run
          cases more : repeatWhile round m with
          | error fault =>
            rw [more] at run
            cases run
          | ok found =>
            rw [more] at run
            obtain ⟨rfl, rfl⟩ := Prod.mk.inj (Except.ok.inj run)
            exact .next first (ih m.rest.length (length ▸ less) more rfl)
        · rw [repeatWhile_of_stuck first less] at run
          obtain ⟨rfl, rfl⟩ := Prod.mk.inj (Except.ok.inj run)
          exact .stuck first less

/-- Where every round takes a token, a loop ends with a round that gives nothing. -/
theorem chain_of_repeatWhile {α : Type} {round : Reader (Option α)} (takes : TakesToken round)
    {c d : Cursor} {as : List α} (run : repeatWhile round c = .ok (as, d)) :
    ∃ m, Chain (fun c a d => round.run c = .ok (some a, d)) c as m ∧
      round.run m = .ok (none, d) := by
  have loop := rounds_of_repeatWhile run
  clear run
  induction loop with
  | stop last => exact ⟨_, .nil _, last⟩
  | stuck last still => exact absurd (takes _ _ _ last) still
  | next first _ ih =>
    obtain ⟨m, chain, last⟩ := ih
    exact ⟨m, .cons first chain, last⟩

theorem outcome_repeatWhile {α : Type} {round : Reader (Option α)} (takes : TakesToken round)
    {reads : Cursor → Option α → Cursor → Prop}
    (rounds : ∀ c, Outcome round c (reads c)) (c : Cursor) :
    Outcome (repeatWhile round) c fun as d =>
      ∃ m, Chain (fun c a d => reads c (some a) d) c as m ∧ reads m none d := by
  -- On the tokens that are left, of which every round that gives something takes one.
  induction length : c.rest.length using Nat.strong_induction_on generalizing c with
  | _ length ih =>
    have first := rounds c
    cases run : round.run c with
    | error fault =>
      obtain ⟨d, reached, faulty⟩ := first.faulty run
      exact .of_fault (repeatWhile_of_error run) reached faulty
    | ok found =>
      obtain ⟨a?, d⟩ := found
      have reached := first.reaches run
      cases a? with
      | none =>
        exact .of_run (repeatWhile_of_none run) reached fun quiet =>
          ⟨c, .nil c, first.clean run quiet⟩
      | some a =>
        have less := takes c a d run
        have whole := repeatWhile_of_some run less
        have rest := ih d.rest.length (by omega) d rfl
        cases more : repeatWhile round d with
        | error fault =>
          obtain ⟨e, further, faulty⟩ := rest.faulty more
          exact .of_fault (whole.trans (by rw [more]; rfl)) (reached.trans further) faulty
        | ok found =>
          obtain ⟨as, e⟩ := found
          have further := rest.reaches more
          refine .of_run (whole.trans (by rw [more]; rfl)) (reached.trans further) fun quiet => ?_
          have before := reached.errors_eq further quiet
          obtain ⟨m, chain, done⟩ := rest.clean more (quiet.trans before.symm)
          exact ⟨m, .cons (first.clean run before) chain, done⟩

section Many

variable {α : Type} {closing : TokenKind} {region : Region} {item : Reader (Option α)}
  {c : Cursor}

theorem run_manyRound_of_end (ends : c.rest = [] ∨ c.current.kind = closing) :
    (manyRound closing region item).run c = .ok (none, c) := by
  change (if c.rest.isEmpty || c.current.kind = closing then _ else _ : Reader _).run c = _
  rw [if_pos (by simpa using ends)]
  rfl

theorem run_manyRound_of_item (open_ : ¬ (c.rest = [] ∨ c.current.kind = closing)) :
    (manyRound closing region item).run c = (item >>= fun found => get >>= fun now =>
      if now.rest.length = c.rest.length then skipUnexpected region >>= fun _ => pure (some found)
      else pure (some found)).run c := by
  change (if c.rest.isEmpty || c.current.kind = closing then _ else _ : Reader _).run c = _
  rw [if_neg (by simpa using open_)]

theorem eq_of_manyRound_none {d : Cursor}
    (run : (manyRound closing region item).run c = .ok (none, d)) : d = c := by
  by_cases ends : c.rest = [] ∨ c.current.kind = closing
  · rw [run_manyRound_of_end ends] at run
    exact (Prod.mk.inj (Except.ok.inj run)).2.symm
  · rw [run_manyRound_of_item ends] at run
    obtain ⟨found, m, -, rest⟩ := run_of_bind run
    rw [run_get_bind] at rest
    split at rest
    · obtain ⟨-, -, never⟩ := run_of_bind_pure rest
      cases never
    · cases (Prod.mk.inj (Except.ok.inj rest)).1

theorem Cursor.Takes.manyRound {d : Cursor} {tokens : List Token} {found : Option α}
    (taken : c.Takes tokens d) (some_ : tokens ≠ []) (other : c.current.kind ≠ closing)
    (run : item.run c = .ok (found, d)) :
    (manyRound closing region item).run c = .ok (some found, d) := by
  have more : c.rest ≠ [] := by simp [taken.rest_eq, some_]
  rw [run_manyRound_of_item (by simp [more, other]), run_bind_of_ok run, run_get_bind,
    if_neg (Nat.ne_of_lt (taken.length_lt some_))]
  rfl

theorem run_many {d : Cursor} {found : List (Option α)}
    (run : repeatWhile (manyRound closing region item) c = .ok (found, d)) :
    (many closing region item).run c = .ok (found.filterMap id, d) := by
  rw [many]
  exact run_bind_of_ok run

theorem length_skipUnexpected_lt (more : c.rest ≠ []) :
    (c.report (.unexpectedIn region c.current.text) c.current).advance.rest.length
      < c.rest.length := Cursor.length_advance_lt more

/-- An item that takes nothing is made up for: the token that it stands at is skipped. -/
theorem takesToken_manyRound {reads : Cursor → Option α → Cursor → Prop}
    (items : ∀ c, Outcome item c (reads c)) : TakesToken (manyRound closing region item) := by
  intro c a d run
  by_cases ends : c.rest = [] ∨ c.current.kind = closing
  · simp [run_manyRound_of_end ends] at run
  · rw [run_manyRound_of_item ends] at run
    obtain ⟨x, m, found, rest⟩ := run_of_bind run
    have less := ((items c).reaches found).length_le
    rw [run_get_bind] at rest
    -- Either the item took a token, or the round skips the one that it stands at.
    by_cases same : m.rest.length = c.rest.length
    · rw [if_pos same, run_bind_of_ok (run_skipUnexpected region)] at rest
      obtain ⟨-, rfl⟩ := Prod.mk.inj (Except.ok.inj rest)
      have more : m.rest ≠ [] := by
        intro empty
        rw [empty] at same
        exact ends (.inl (List.length_eq_zero_iff.mp same.symm))
      have shorter := @length_skipUnexpected_lt region m more
      omega
    · rw [if_neg same] at rest
      obtain ⟨-, rfl⟩ := Prod.mk.inj (Except.ok.inj rest)
      omega

/-- `many` goes through its rounds, each from where the one before it ended. -/
theorem chain_of_many (takes : TakesToken (manyRound closing region item)) {d : Cursor}
    {as : List α} (run : (many closing region item).run c = .ok (as, d)) :
    ∃ each, as = each.filterMap id ∧
      Chain (fun c found d => (manyRound closing region item).run c = .ok (some found, d))
        c each d := by
  obtain ⟨each, loop, rfl⟩ := run_of_bind_pure run
  obtain ⟨m, chain, done⟩ := chain_of_repeatWhile takes loop
  rw [eq_of_manyRound_none done]
  exact ⟨each, rfl, chain⟩

theorem outcome_manyRound {reads : Cursor → Option α → Cursor → Prop}
    (items : ∀ c, Outcome item c (reads c)) (c : Cursor) :
    Outcome (manyRound closing region item) c fun found d =>
      match found with
      | none => d = c
      | some a => reads c a d := by
  by_cases ends : c.rest = [] ∨ c.current.kind = closing
  · exact .of_run (run_manyRound_of_end ends) .refl fun _ => rfl
  · have whole : Outcome (item >>= fun found => get >>= fun now =>
        if now.rest.length = c.rest.length then skipUnexpected region >>= fun _ => pure (some found)
        else pure (some found)) c fun found d =>
          match found with
          | none => d = c
          | some a => reads c a d :=
      .bind (items c) fun a m => outcome_get_bind <| .ite
        (fun _ => .bind (outcome_skipUnexpected region) fun _ _ => .pure fun never => never.elim)
        (fun _ => .pure fun read => read)
    simpa only [Outcome, run_manyRound_of_item ends] using whole

theorem outcome_many {reads : Cursor → Option α → Cursor → Prop}
    (items : ∀ c, Outcome item c (reads c)) (c : Cursor) :
    Outcome (many closing region item) c fun as d =>
      ∃ found, Chain reads c found d ∧ as = found.filterMap id := by
  refine .bind (outcome_repeatWhile (takesToken_manyRound items) (outcome_manyRound items) c)
    fun found d => .pure ?_
  rintro ⟨m, chain, rfl⟩
  exact ⟨found, chain, rfl⟩

end Many

section Commas

variable {α : Type} {item : Reader α} {c : Cursor}

theorem run_commaRound_of_comma (here : c.current.kind = .mark .comma) :
    (commaRound item).run c = (item >>= fun a => pure (some a)).run c.advance := by
  rw [commaRound, run_bind_of_ok (run_accept_of_eq here)]
  rfl

theorem run_commaRound_of_other (here : c.current.kind ≠ .mark .comma) :
    (commaRound item).run c = .ok (none, c) := by
  rw [commaRound, run_bind_of_ok (run_accept_of_ne here)]
  rfl

theorem takesToken_commaRound {reads : Cursor → α → Cursor → Prop}
    (items : ∀ c, Outcome item c (reads c)) : TakesToken (commaRound item) := by
  intro c a d run
  by_cases here : c.current.kind = .mark .comma
  · rw [run_commaRound_of_comma here] at run
    have moved : Outcome (item >>= fun a => pure (some a)) c.advance fun _ _ => True :=
      .bind (items _) fun _ _ => .pure fun _ => trivial
    have more : c.rest ≠ [] := Cursor.rest_ne_nil (by simp [here])
    exact (moved.reaches run).length_le.trans_lt (Cursor.length_advance_lt more)
  · simp [run_commaRound_of_other here] at run

theorem outcome_commaRound {reads : Cursor → α → Cursor → Prop}
    (items : ∀ c, Outcome item c (reads c)) (c : Cursor) :
    Outcome (commaRound item) c fun found d =>
      match found with
      | none => d = c
      | some a => ∃ comma m, comma.kind = .mark .comma ∧ c.Takes [comma] m ∧ reads m a d := by
  refine .bind (outcome_accept (by simp)) fun found m => .ite (fun yes => ?_) (fun no => ?_)
  · refine .bind (items m) fun a d => .pure ?_
    rintro read (⟨-, here, taken⟩ | ⟨no, -⟩)
    · exact ⟨c.current, m, here, taken, read⟩
    · simp [yes] at no
  · refine .pure ?_
    rintro (⟨yes, -⟩ | ⟨-, -, same⟩)
    · exact absurd yes no
    · exact same

theorem outcome_separatedByCommas {reads : Cursor → α → Cursor → Prop}
    (items : ∀ c, Outcome item c (reads c)) (c : Cursor) :
    Outcome (separatedByCommas item) c fun as d => ∃ first more m, as = first :: more ∧
      reads c first m ∧
      Chain (fun c a d => ∃ comma m, comma.kind = .mark .comma ∧ c.Takes [comma] m ∧ reads m a d)
        m more d := by
  refine .bind (items c) fun first m => .bind (outcome_repeatWhile (takesToken_commaRound items)
    (outcome_commaRound items) m) fun more d => .pure ?_
  rintro ⟨e, chain, rfl⟩ read
  exact ⟨first, more, m, rfl, read, chain⟩

end Commas

end ArchDiagram.Syntax
