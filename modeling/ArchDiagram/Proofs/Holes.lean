import ArchDiagram.Proofs.Skipping

/-!
Runs towards an opening mark that lies too deep. What stands behind that mark, up to the closing
mark that belongs to it, is a hole in the list of tokens. A run with nothing behind the mark guides
two runs with different tokens in the hole: as long as the mark is ahead, all three do the same;
behind the hole, the two go on alike; and a run that comes by the mark otherwise shows that by what
it reports there.
-/

namespace ArchDiagram.Syntax

/-- An opening mark with its closing mark and what stands behind them, but not what is between. -/
structure Hole where
  first : Token
  last : Token
  behind : List Token
  ending : Cursor
  marks : (first.kind, last.kind) ∈ brackets

namespace Hole

variable (hole : Hole)

/-- The cursor with the given tokens in the hole behind it. -/
def fill (inner : List Token) (c : Cursor) : Cursor :=
  { hole.ending with
    rest := c.rest ++ (inner ++ hole.last :: hole.behind)
    lastStop := c.lastStop
    errors := c.errors }

/-- The opening mark is still to be read, and it alone stands at its place, where nothing has been
reported. -/
structure Ahead (c : Cursor) : Prop where
  rest : ∃ front, c.rest = front ++ [hole.first] ∧
    ∀ token ∈ front, token.position ≠ hole.first.position
  final : c.final.position ≠ hole.first.position
  errors : ∀ error ∈ c.errors, error.position ≠ hole.first.position

/-- The opening mark is not what was left out: something else was reported there, or nothing was and
nothing will be. -/
inductive Missed (c : Cursor) : Prop
  | reported {error : SyntaxError} : error ∈ c.errors → error.position = hole.first.position →
      error.cause ≠ .nestingTooDeep → Missed c
  | taken : (∀ error ∈ c.errors, error.position ≠ hole.first.position) →
      (∀ token ∈ c.rest, token.position ≠ hole.first.position) →
      c.final.position ≠ hole.first.position → Missed c

theorem lasting_missed : Lasting hole.Missed where
  taken {c} missed := by
    cases missed with
    | reported member here other => exact .reported (by simpa using member) here other
    | taken errors rest final =>
      have left : ∀ token ∈ c.advance.rest, token.position ≠ hole.first.position := by
        rw [Cursor.rest_advance]
        exact fun token member => rest token (List.mem_of_mem_tail member)
      exact .taken (by simpa using errors) left (by simpa using final)
  reported {c cause} token other missed := by
    cases missed with
    | reported member here wrong => exact .reported (List.mem_cons_of_mem _ member) here wrong
    | taken errors rest final =>
      -- A report at the mark is another one than that of the hole.
      by_cases here : token.position = hole.first.position
      · exact .reported List.mem_cons_self here other
      · exact .taken (List.forall_mem_cons.2 ⟨here, errors⟩) rest final
  tooDeep {c} missed := by
    cases missed with
    | reported member here wrong => exact .reported (List.mem_cons_of_mem _ member) here wrong
    | taken errors rest final =>
      have apart : c.current.position ≠ hole.first.position := by
        unfold Cursor.current
        cases tokens : c.rest with
        | nil => exact final
        | cons token _ => exact rest token (by simp [tokens])
      exact .taken (List.forall_mem_cons.2 ⟨apart, errors⟩) rest final

end Hole

theorem lasting_length (n : Nat) : Lasting fun c => c.rest.length ≤ n where
  taken {c} short := by
    rw [Cursor.rest_advance, List.length_tail]
    omega
  reported _ _ short := short
  tooDeep short := short

/-- How runs end that have come to a hole: once with nothing behind its opening mark, and twice with
tokens in it. -/
inductive Ends (hole : Hole) (inner inner' : List Token) {α : Type} :
    Except Fault (α × Cursor) → Except Fault (α × Cursor) → Except Fault (α × Cursor) → Prop
  | ahead {a : α} {d : Cursor} : hole.Ahead d →
      Ends hole inner inner' (.ok (a, d)) (.ok (a, hole.fill inner d)) (.ok (a, hole.fill inner' d))
  | past {x y : Except Fault (α × Cursor)} :
      (∀ a d, y = .ok (a, d) → d.rest.length ≤ hole.behind.length) → Ends hole inner inner' x y y
  | failed {fault : Fault} {y z : Except Fault (α × Cursor)} :
      Ends hole inner inner' (.error fault) y z
  | missed {a : α} {d : Cursor} {y z : Except Fault (α × Cursor)} : hole.Missed d →
      Ends hole inner inner' (.ok (a, d)) y z

section Ends

variable {α β : Type} {hole : Hole} {inner inner' : List Token}

theorem Ends.bind {x y z : Except Fault (α × Cursor)} (ends : Ends hole inner inner' x y z)
    {f g h : α × Cursor → Except Fault (β × Cursor)}
    (ahead : ∀ a d, hole.Ahead d →
      Ends hole inner inner' (f (a, d)) (g (a, hole.fill inner d)) (h (a, hole.fill inner' d)))
    (past : ∀ a d, d.rest.length ≤ hole.behind.length → g (a, d) = h (a, d) ∧
      ∀ b e, g (a, d) = .ok (b, e) → e.rest.length ≤ hole.behind.length)
    (missed : ∀ a d b e, hole.Missed d → f (a, d) = .ok (b, e) → hole.Missed e) :
    Ends hole inner inner' (x >>= f) (y >>= g) (z >>= h) := by
  cases ends with
  | ahead here => exact ahead _ _ here
  | @past x y short =>
    cases y with
    | error fault => exact .past fun b e run => by cases run
    | ok read =>
      obtain ⟨a, d⟩ := read
      obtain ⟨same, shorter⟩ := past a d (short a d rfl)
      change Ends hole inner inner' _ (g (a, d)) (h (a, d))
      rw [← same]
      exact .past shorter
  | failed => exact .failed
  | @missed a d y z lost =>
    change Ends hole inner inner' (f (a, d)) _ _
    cases run : f (a, d) with
    | error fault => exact .failed
    | ok read => exact .missed (missed a d _ _ lost run)

theorem Ends.map {x y z : Except Fault (α × Cursor)} (ends : Ends hole inner inner' x y z)
    (f : α → β) : Ends hole inner inner' (x.map (Prod.map f id)) (y.map (Prod.map f id))
      (z.map (Prod.map f id)) := by
  cases ends with
  | ahead here => exact .ahead here
  | @past x y short =>
    refine .past fun b d run => ?_
    cases y with
    | error fault => cases run
    | ok read =>
      obtain ⟨-, rfl⟩ := Prod.mk.inj (Except.ok.inj run)
      exact short read.1 read.2 rfl
  | failed => exact .failed
  | missed lost => exact .missed lost

/-- What a loop does behind a round that began with so many tokens left: it goes on if that gave
something and took a token. -/
def nextRounds (round : Reader (Option α)) (left : Nat) :
    Option α × Cursor → Except Fault (List α × Cursor)
  | (none, next) => .ok ([], next)
  | (some a, next) =>
    if next.rest.length < left then (repeatWhile round next).map (Prod.map (a :: ·) id)
    else .ok ([a], next)

theorem repeatWhile_eq (round : Reader (Option α)) (c : Cursor) :
    repeatWhile round c = round.run c >>= nextRounds round c.rest.length := by
  rw [repeatWhile]
  cases round.run c with
  | error fault => rfl
  | ok read => obtain ⟨- | a, next⟩ := read <;> rfl

theorem Keeps.nextRounds {p : Cursor → Prop} {round : Reader (Option α)} (keeps : Keeps p round)
    {left : Nat} {a? : Option α} {as : List α} {c d : Cursor}
    (run : nextRounds round left (a?, c) = .ok (as, d)) (holds : p c) : p d := by
  cases a? with
  | none =>
    obtain ⟨-, rfl⟩ := Prod.mk.inj (Except.ok.inj run)
    exact holds
  | some a =>
    rw [Syntax.nextRounds] at run
    split at run
    · cases found : Syntax.repeatWhile round c with
      | error fault =>
        rw [found] at run
        cases run
      | ok read =>
        rw [found] at run
        obtain ⟨-, rfl⟩ := Prod.mk.inj (Except.ok.inj run)
        exact keeps.repeatWhile found holds
    · obtain ⟨-, rfl⟩ := Prod.mk.inj (Except.ok.inj run)
      exact holds

end Ends

namespace Hole

variable {hole : Hole} {inner inner' : List Token} {c : Cursor}

theorem Ahead.rest_ne_nil (ahead : hole.Ahead c) : c.rest ≠ [] := by
  obtain ⟨front, whole, -⟩ := ahead.rest
  simp [whole]

theorem Ahead.current_fill (ahead : hole.Ahead c) (inner : List Token) :
    (hole.fill inner c).current = c.current := by
  obtain ⟨token, tokens, whole⟩ := List.exists_cons_of_ne_nil ahead.rest_ne_nil
  simp [Cursor.current, fill, whole]

theorem Ahead.advance_fill (ahead : hole.Ahead c) (inner : List Token) :
    (hole.fill inner c).advance = hole.fill inner c.advance := by
  obtain ⟨token, tokens, whole⟩ := List.exists_cons_of_ne_nil ahead.rest_ne_nil
  simp [Cursor.advance, fill, whole]

theorem length_fill : (hole.fill inner c).rest.length =
    c.rest.length + (inner.length + hole.behind.length + 1) := by
  simp only [fill, List.length_append, List.length_cons]
  omega

theorem lt_length_fill : hole.behind.length < (hole.fill inner c).rest.length := by
  rw [length_fill]
  omega

theorem Ahead.cases (ahead : hole.Ahead c) : c.rest = [hole.first] ∨
    c.current.position ≠ hole.first.position ∧ hole.Ahead c.advance := by
  obtain ⟨⟨front, whole, apart⟩, final, errors⟩ := ahead
  cases front with
  | nil => exact .inl whole
  | cons token front =>
    have current : c.current = token := by simp [Cursor.current, whole]
    have tail : c.advance.rest = front ++ [hole.first] := by simp [Cursor.rest_advance, whole]
    obtain ⟨here, others⟩ := List.forall_mem_cons.1 apart
    exact .inr ⟨current ▸ here, ⟨front, tail, others⟩, by simpa using final, by simpa using errors⟩

theorem Ahead.report (ahead : hole.Ahead c) {token : Token}
    (apart : token.position ≠ hole.first.position) (cause : SyntaxError.Cause) :
    hole.Ahead (c.report cause token) :=
  ⟨ahead.rest, ahead.final, List.forall_mem_cons.2 ⟨apart, ahead.errors⟩⟩

theorem Ahead.repeat_advance (ahead : hole.Ahead c) {n : Nat} (less : n < c.rest.length) :
    (n.repeat Cursor.advance c).rest.length + n = c.rest.length ∧
    hole.Ahead (n.repeat Cursor.advance c) ∧ ∀ inner,
      n.repeat Cursor.advance (hole.fill inner c) =
        hole.fill inner (n.repeat Cursor.advance c) := by
  induction n with
  | zero => exact ⟨rfl, ahead, fun _ => rfl⟩
  | succ n ih =>
    obtain ⟨length, there, same⟩ := ih (by omega)
    -- Behind so few tokens the mark is not reached yet.
    have further : hole.Ahead (n.repeat Cursor.advance c).advance := by
      rcases there.cases with here | ⟨-, further⟩
      · rw [here, List.length_singleton] at length
        omega
      · exact further
    have shorter : (n.repeat Cursor.advance c).advance.rest.length + (n + 1) = c.rest.length := by
      have some_ := List.length_pos_iff.2 there.rest_ne_nil
      rw [Cursor.rest_advance, List.length_tail]
      omega
    exact ⟨shorter, further, fun inner => (congrArg Cursor.advance (same inner)).trans
      (there.advance_fill inner)⟩

theorem Ahead.missed (ahead : hole.Ahead c) {d : Cursor} (taken : c.Takes c.rest d)
    (ends : d.rest = []) : hole.Missed d := by
  -- With the opening mark, the last token is taken that stands at its place.
  refine .taken ?_ (by simp [ends]) (taken.final_eq ▸ ahead.final)
  rw [taken.errors_eq]
  exact ahead.errors

theorem Ahead.sameView (ahead : hole.Ahead c) : c.SameView (hole.fill inner c) where
  more := ahead.rest_ne_nil
  more' := by simp [fill]
  current := (ahead.current_fill inner).symm
  lastStop := rfl
  ahead brace less := by
    have filled : (hole.fill inner c).rest ≠ [] := by simp [fill]
    rw [Cursor.ahead_eq ahead.rest_ne_nil, Cursor.ahead_eq filled, Cursor.following_eq,
      Cursor.following_eq, ahead.advance_fill]
    rcases ahead.cases with here | ⟨-, further⟩
    · have marks := hole.marks
      have current : c.current = hole.first := by simp [Cursor.current, here]
      rw [current] at brace less
      simp [brackets, brace, less] at marks
    · exact (further.current_fill inner).symm

end Hole

section Indifferent

variable {α β : Type} {hole : Hole} {inner inner' : List Token} {r : Reader α}

/-- Towards a hole, a reader makes no difference between the tokens in it. -/
def Indifferent (hole : Hole) (inner inner' : List Token) (r : Reader α) : Prop :=
  ∀ c, hole.Ahead c →
    Ends hole inner inner' (r.run c) (r.run (hole.fill inner c)) (r.run (hole.fill inner' c))

namespace Indifferent

protected theorem pure (a : α) : Indifferent hole inner inner' (pure a : Reader α) :=
  fun _ ahead => .ahead ahead

protected theorem bind {f : α → Reader β} (first : Indifferent hole inner inner' r)
    (short : ∀ a, Shortsighted (f a)) (next : ∀ a, Indifferent hole inner inner' (f a)) :
    Indifferent hole inner inner' (r >>= f) := by
  intro c ahead
  simp only [StateT.run_bind]
  exact (first c ahead).bind (fun a d here => next a d here)
    (fun a d less => ⟨rfl, fun b e run => (short a).keeps (lasting_length _) run less⟩)
    fun a d b e lost run => (short a).keeps hole.lasting_missed run lost

theorem look {f : Cursor → Reader α} (same : ∀ c d, c.SameView d → f c = f d)
    (next : ∀ c, Indifferent hole inner inner' (f c)) :
    Indifferent hole inner inner' (get >>= f) := by
  intro c ahead
  rw [run_get_bind, run_get_bind, run_get_bind, ← same _ _ ahead.sameView,
    ← same _ _ ahead.sameView]
  exact next c c ahead

theorem current : Indifferent hole inner inner' current :=
  look (fun _ _ view => by rw [view.current]) fun _ => .pure _

theorem ite {s : Reader α} {q : Prop} [Decidable q] (yes : Indifferent hole inner inner' r)
    (no : Indifferent hole inner inner' s) :
    Indifferent hole inner inner' (if q then r else s) := by
  by_cases holds : q
  · rwa [if_pos holds]
  · rwa [if_neg holds]

theorem advance : Indifferent hole inner inner' advance := by
  intro c ahead
  simp only [run_advance, ahead.current_fill, ahead.advance_fill]
  rcases ahead.cases with here | ⟨-, further⟩
  · have ends : c.advance.rest = [] := by rw [Cursor.rest_advance, here, List.tail_cons]
    have taken : c.Takes c.rest c.advance := by
      rw [Cursor.rest_eq_cons ahead.rest_ne_nil, ends]
      exact Cursor.takes_current ahead.rest_ne_nil
    exact .missed (ahead.missed taken ends)
  · exact .ahead further

theorem report {cause : SyntaxError.Cause} (token : Token) (other : cause ≠ .nestingTooDeep) :
    Indifferent hole inner inner' (report cause token) := by
  intro c ahead
  by_cases here : token.position = hole.first.position
  · exact .missed (.reported List.mem_cons_self here other)
  · exact .ahead (ahead.report here cause)

theorem expect (kind : TokenKind) : Indifferent hole inner inner' (expect kind) := by
  refine .bind .current (fun token => ?_) fun token => ?_
  · exact .ite .advance (.bind (.report token (by simp)) fun _ => .pure _)
  · exact .ite .advance (.bind (.report token (by simp)) (fun _ => .pure _) fun _ => .pure _)

theorem skipUnexpected (region : Region) :
    Indifferent hole inner inner' (skipUnexpected region) := by
  have discards : Shortsighted (Functor.discard Syntax.advance) := Shortsighted.advance.discard
  refine .bind .current (fun token => .bind (.report token (by simp)) fun _ => discards) ?_
  exact fun token => .bind (.report token (by simp)) (fun _ => discards) fun _ =>
    .bind .advance (fun _ => .pure _) fun _ => .pure _

theorem value (value : Except Fault α) :
    Indifferent hole inner inner' (liftM value : Reader α) := by
  intro c ahead
  cases value with
  | error fault => exact .failed
  | ok a => exact .ahead ahead

theorem refuse {cause : SyntaxError.Cause} (other : cause ≠ .nestingTooDeep) :
    Indifferent hole inner inner' (refuse cause) := by
  intro c ahead
  have run (d : Cursor) : (Syntax.refuse cause).run d =
      .ok ((), (d.report cause d.current).report .nestingTooDeep d.current) := rfl
  simp only [run, ahead.current_fill]
  rcases ahead.cases with here | ⟨apart, -⟩
  · have current : c.current = hole.first := by simp [Cursor.current, here]
    rw [current]
    exact .missed (.reported (List.mem_cons_of_mem _ List.mem_cons_self) rfl other)
  · exact .ahead ((ahead.report apart cause).report apart .nestingTooDeep)

/-- A skip that does not find its closing mark before the hole misses it. -/
theorem skipNested {opening closing : TokenKind} (marks : (opening, closing) ∈ brackets) :
    Indifferent hole inner inner' (skipNested opening closing) := by
  intro c ahead
  obtain ⟨front, whole, -⟩ := ahead.rest
  have skips (d : Cursor) : (Syntax.skipNested opening closing).run d =
      .ok ((), (nestedLength opening closing 0 d.rest).repeat Cursor.advance d) := rfl
  rw [skips, skips, skips]
  -- The closing mark is found before the hole, or the skip passes the opening mark of the hole.
  rcases @nestedLength_append opening closing 0 front with ⟨found, same⟩ | ⟨open_, same⟩
  · have length (inner : List Token) : nestedLength opening closing 0 (hole.fill inner c).rest =
        nestedLength opening closing 0 front := by
      rw [Hole.fill, whole, List.append_assoc, same]
    obtain ⟨-, further, moves⟩ := ahead.repeat_advance
      (n := nestedLength opening closing 0 front) (by simpa [whole] using Nat.lt_succ_of_lt found)
    rw [length, length, whole, same, moves, moves]
    exact .ahead further
  · have opens : nestedLength opening closing open_ [hole.first] = 1 := by
      have differ := opening_ne_closing hole.marks marks
      by_cases opens : hole.first.kind = opening
      · simp [nestedLength, opens]
      · simp [nestedLength, opens, differ]
    obtain ⟨d, taken, ends⟩ := c.takes_rest
    rw [whole, same, opens, ← List.length_singleton, ← List.length_append, ← whole,
      taken.repeat_advance]
    exact .missed (ahead.missed taken ends)

theorem leaveOut {opening closing : TokenKind} (marks : (opening, closing) ∈ brackets)
    (balanced : Balanced hole.first.kind hole.last.kind inner)
    (balanced' : Balanced hole.first.kind hole.last.kind inner') {other : Reader Unit}
    (others : Indifferent hole inner inner' other) :
    Indifferent hole inner inner' (isAt opening >>= fun here =>
      if here then leaveOut opening closing else other) := by
  intro c ahead
  rw [run_bind_of_ok (run_isAt c opening), run_bind_of_ok (run_isAt (hole.fill inner c) opening),
    run_bind_of_ok (run_isAt (hole.fill inner' c) opening), ahead.current_fill, ahead.current_fill]
  by_cases opens : c.current.kind = opening
  · simp only [opens, decide_true, if_true]
    rcases ahead.cases with here | ⟨apart, further⟩
    · -- Here the hole itself is left out, whatever is in it.
      have current : c.current = hole.first := by simp [Cursor.current, here]
      rw [current] at opens
      subst opens
      obtain rfl := closing_eq hole.marks marks
      have whole (inner : List Token) : (hole.fill inner c).rest =
          hole.first :: (inner ++ hole.last :: hole.behind) := by simp [Hole.fill, here]
      rw [run_leaveOut marks rfl balanced (whole inner),
        run_leaveOut marks rfl balanced' (whole inner')]
      refine .past fun _ d run => ?_
      obtain ⟨-, rfl⟩ := Prod.mk.inj (Except.ok.inj run)
      exact Nat.le_refl _
    -- Another mark of the same kind is left out, and the hole may be inside.
    · have run (d : Cursor) : (Syntax.leaveOut opening closing).run d =
          (Syntax.skipNested opening closing >>= fun _ =>
            Functor.discard (Syntax.expect closing)).run
              (d.advance.report .nestingTooDeep d.current) := rfl
      have closes : Indifferent hole inner inner' (Functor.discard (Syntax.expect closing)) :=
        .bind (.expect closing) (fun _ => .pure _) fun _ => .pure _
      simp only [run, ahead.current_fill, ahead.advance_fill]
      exact Indifferent.bind (.skipNested marks) (fun _ => shortsighted_expect.discard)
        (fun _ => closes) _ (further.report apart .nestingTooDeep)
  · simp only [opens, decide_false]
    exact others c ahead

theorem repeatWhile {round : Reader (Option α)} (short : Shortsighted round)
    (rounds : Indifferent hole inner inner' round) :
    Indifferent hole inner inner' (repeatWhile round) := by
  intro c ahead
  change Ends hole inner inner' (Syntax.repeatWhile round c) (Syntax.repeatWhile round _)
    (Syntax.repeatWhile round _)
  -- On the tokens that are left, as the loop itself ends.
  induction length : c.rest.length using Nat.strong_induction_on generalizing c with
  | _ length ih =>
    rw [repeatWhile_eq, repeatWhile_eq, repeatWhile_eq]
    refine (rounds c ahead).bind (fun a? d further => ?_) (fun a? d less => ⟨?_, fun as e run => ?_⟩)
      fun a? d as e lost run => (short.keeps hole.lasting_missed).nextRounds run lost
    · cases a? with
      | none => exact .ahead further
      | some a =>
        simp only [nextRounds, Hole.length_fill, Nat.add_lt_add_iff_right]
        by_cases less : d.rest.length < c.rest.length
        · simp only [if_pos less]
          exact (ih d.rest.length (length ▸ less) d further rfl).map (a :: ·)
        · simp only [if_neg less]
          exact .ahead further
    · -- Behind the hole both loops have taken a token.
      have shorter (inner : List Token) : d.rest.length < (hole.fill inner c).rest.length :=
        Nat.lt_of_le_of_lt less Hole.lt_length_fill
      cases a? with
      | none => rfl
      | some a => rw [nextRounds, nextRounds, if_pos (shorter inner), if_pos (shorter inner')]
    · exact (short.keeps (lasting_length _)).nextRounds run less

theorem manyRound {closing : TokenKind} {region : Region} {item : Reader (Option α)}
    (items : Indifferent hole inner inner' item) :
    Indifferent hole inner inner' (manyRound closing region item) := by
  intro c ahead
  have filled (inner : List Token) : (hole.fill inner c).rest ≠ [] := by simp [Hole.fill]
  have same := ahead.current_fill
  by_cases closes : c.current.kind = closing
  · rw [run_manyRound_of_end (.inr closes), run_manyRound_of_end (.inr (same inner ▸ closes)),
      run_manyRound_of_end (.inr (same inner' ▸ closes))]
    exact .ahead ahead
  · rw [run_manyRound_of_item (by simp [ahead.rest_ne_nil, closes]),
      run_manyRound_of_item (by simp [filled, same, closes]),
      run_manyRound_of_item (by simp [filled, same, closes]), StateT.run_bind, StateT.run_bind,
      StateT.run_bind]
    have skips (found : Option α) : Indifferent hole inner inner'
        (Syntax.skipUnexpected region >>= fun _ => Pure.pure (some found)) :=
      .bind (.skipUnexpected region) (fun _ => .pure _) fun _ => .pure _
    have keeps {p : Cursor → Prop} (lasting : Lasting p) (left : Nat) (found : Option α) :
        Keeps p (get >>= fun now => if now.rest.length = left then
          Syntax.skipUnexpected region >>= fun _ => Pure.pure (some found)
          else Pure.pure (some found)) :=
      .look fun now => .ite (.bind (lasting.keeps_skipUnexpected region) fun _ => .pure _) (.pure _)
    refine (items c ahead).bind (fun found d further => ?_)
      (fun found d less => ⟨?_, fun _ _ run => keeps (lasting_length _) _ found run less⟩)
      fun found d _ _ lost run => keeps hole.lasting_missed _ found run lost
    · simp only [run_get_bind, Hole.length_fill, Nat.add_right_cancel_iff]
      exact Indifferent.ite (skips found) (.pure _) d further
    · -- Behind the hole both rounds have taken a token.
      have moved (inner : List Token) : d.rest.length ≠ (hole.fill inner c).rest.length :=
        Nat.ne_of_lt (Nat.lt_of_le_of_lt less Hole.lt_length_fill)
      simp only [run_get_bind, if_neg (moved inner), if_neg (moved inner')]

end Indifferent

end Indifferent

/-- Readers that see no farther than they should make no difference between the tokens in a hole. -/
theorem Shortsighted.indifferent {α : Type} {r : Reader α} (short : Shortsighted r) {hole : Hole}
    {inner inner' : List Token} (balanced : Balanced hole.first.kind hole.last.kind inner)
    (balanced' : Balanced hole.first.kind hole.last.kind inner') :
    Indifferent hole inner inner' r := by
  induction short with
  | pure a => exact .pure a
  | bind _ short first next => exact .bind first short next
  | current => exact .current
  | advance => exact .advance
  | report token other => exact .report token other
  | value value => exact .value value
  | look same _ ih => exact .look same ih
  | repeatWhile short ih => exact .repeatWhile short ih
  | manyRound _ ih => exact .manyRound ih
  | leaveOut marks _ ih => exact .leaveOut marks balanced balanced' ih
  | refuse other => exact .refuse other

end ArchDiagram.Syntax
