import ArchDiagram.Proofs.MaximalMunch
import Mathlib.Data.List.Forall2

/-!
No character of a source is lost or read twice. What stands between tokens is made up of blanks,
comments and characters that begin nothing, in one way only. Each of these characters is reported
where it stands; besides, only a comment or string that runs on to the end of the source is.
-/

namespace ArchDiagram.Lexer

open SyntaxError (Cause)

/-- A part of what stands between tokens, in front of the rest of a source. A line comment ends
before its line feed, and only a comment at the end of the source can be left open. -/
inductive Fits : Piece → List Char → Prop
  | blank {c : Char} {rest : List Char} : isBlank c = true → Fits (.blank c) rest
  | lineComment {text rest : List Char} : '\n' ∉ text →
      (rest = [] ∨ ∃ behind, rest = '\n' :: behind) → Fits (.lineComment ('/' :: '/' :: text)) rest
  | blockComment {text rest : List Char} : ¬ ['*', '/'] <:+: text →
      Fits (.blockComment ('/' :: '*' :: (text ++ ['*', '/'])) true) rest
  | openComment {text : List Char} : ¬ ['*', '/'] <:+: text →
      Fits (.blockComment ('/' :: '*' :: text) false) []
  | stray {c : Char} {rest : List Char} : Unreadable (c :: rest) → Fits (.stray c) rest

/-- A text in front of the rest of a source is made up of parts. -/
inductive Splits : List Piece → List Char → List Char → Prop
  | nil (rest : List Char) : Splits [] [] rest
  | cons {part : Piece} {parts : List Piece} {text rest : List Char} : Fits part (text ++ rest) →
      Splits parts text rest → Splits (part :: parts) (part.source ++ text) rest

/-- Where the stretches between tokens start and stop, the first one from the given offset on. -/
def gaps : Nat → List Token → List (Nat × Nat)
  | _, [] => []
  | start, token :: rest => (start, token.position.offset) :: gaps token.stop rest

def straysFrom (offset : Nat) : List Piece → List (Char × Nat)
  | [] => []
  | .stray c :: rest => (c, offset) :: straysFrom (offset + 1) rest
  | part :: rest => straysFrom (offset + part.source.length) rest

def strayReports (gap : (Nat × Nat) × List Piece) : List (Cause × Nat) :=
  (straysFrom gap.1.1 gap.2).map fun (c, offset) => (.unexpectedCharacter c, offset)

/-- A string that is not closed before the text ends. -/
def OpenString (cs : List Char) : Prop := ∃ raw content final, Inside raw content ∧
  (final = [] ∨ final = ['\\']) ∧ cs = '"' :: (raw ++ final)

/-- What runs on to the end of a source and is to be reported: a comment, which is the last part of
the last stretch, or a string. -/
inductive Unfinished (cs : List Char) (tokens : List Token) (splits : List (List Piece)) :
    List (Cause × Nat) → Prop
  | nothing : (∀ parts ∈ splits, ∀ text, .blockComment text false ∉ parts) →
      (∀ token ∈ tokens, token.kind = .string → ¬ OpenString (cs.drop token.position.offset)) →
      Unfinished cs tokens splits []
  | comment (others : List (List Piece)) (before : List Piece) {text : List Char} {offset : Nat} :
      splits = others ++ [before ++ [.blockComment text false]] → offset + text.length = cs.length →
      Unfinished cs tokens splits [(.unterminatedComment, offset)]
  | string {token : Token} : token ∈ tokens → token.kind = .string → token.stop = cs.length →
      OpenString (cs.drop token.position.offset) →
      Unfinished cs tokens splits [(.unterminatedString, token.position.offset)]

/-- The stretches between tokens from an offset on, each split into its parts, and what is reported
from there on: the characters that begin nothing, and at last what is unfinished. -/
structure Ledger (cs : List Char) (start : Nat) (tokens : List Token)
    (reports : List (Cause × Nat)) (splits : List (List Piece)) (last : List (Cause × Nat)) :
    Prop where
  split : List.Forall₂ (fun gap parts => Splits parts (cs.extract gap.1 gap.2) (cs.drop gap.2))
    (gaps start tokens) splits
  reported : reports = ((gaps start tokens).zip splits).flatMap strayReports ++ last
  unfinished : Unfinished cs tokens splits last

-- A stretch splits in one way only, since each part is the piece that is cut there.

theorem Fits.source_ne_nil {part : Piece} {rest : List Char} (fits : Fits part rest) :
    part.source ≠ [] := by
  cases fits <;> exact List.cons_ne_nil _ _

theorem Fits.cutPiece {part : Piece} {rest : List Char} (fits : Fits part rest) {c : Char}
    {cs : List Char} (whole : part.source ++ rest = c :: cs) :
    Lexer.cutPiece c cs = (part, rest) := by
  cases fits with
  | blank blank =>
    obtain ⟨rfl, rfl⟩ := List.cons.inj whole
    exact cutPiece_blank blank rest
  | lineComment line ends =>
    obtain ⟨rfl, rfl⟩ := List.cons.inj whole
    exact cutPiece_lineComment line ends
  | blockComment inner =>
    obtain ⟨rfl, rfl⟩ := List.cons.inj whole
    simpa using cutPiece_blockComment inner rest
  | openComment inner =>
    obtain ⟨rfl, rfl⟩ := List.cons.inj whole
    simpa using cutPiece_openComment inner
  | stray unreadable =>
    obtain ⟨rfl, rfl⟩ := List.cons.inj whole
    exact cutPiece_stray unreadable

theorem Splits.unique {parts others : List Piece} {text rest : List Char}
    (first : Splits parts text rest) (second : Splits others text rest) : parts = others := by
  induction first generalizing others with
  | nil rest =>
    generalize empty : ([] : List Char) = text at second
    cases second with
    | nil => rfl
    | cons fits => simp [fits.source_ne_nil] at empty
  | @cons part parts text rest fits _ ih =>
    generalize same : part.source ++ text = whole at second
    cases second with
    | nil => simp [fits.source_ne_nil] at same
    | @cons other others behind _ fits' second =>
      -- Both begin with the piece that is cut in front of the same characters.
      obtain ⟨c, cs, front⟩ : ∃ c cs, part.source ++ (text ++ rest) = c :: cs :=
        List.exists_cons_of_ne_nil (by simp [fits.source_ne_nil])
      have front' : other.source ++ (behind ++ rest) = c :: cs := by
        rw [← front, ← List.append_assoc, ← List.append_assoc, same]
      obtain ⟨rfl, rest_⟩ := Prod.mk.inj ((fits.cutPiece front).symm.trans (fits'.cutPiece front'))
      obtain rfl := List.append_cancel_right rest_
      rw [ih second]

theorem Skips.exists_fits {text rest : List Char} (skips : Skips text rest) :
    ∃ part, Fits part rest ∧ part.source = text := by
  cases skips with
  | blank blank => exact ⟨_, .blank blank, rfl⟩
  | lineComment line ends => exact ⟨_, .lineComment line ends, rfl⟩
  | blockComment inner => exact ⟨_, .blockComment inner, rfl⟩
  | openComment inner => exact ⟨_, .openComment inner, rfl⟩

theorem fits_cutPiece {c : Char} {cs : List Char} (silent : (cutPiece c cs).1.lexeme? = none) :
    Fits (cutPiece c cs).1 (cutPiece c cs).2 := by
  rcases (cutPiece c cs).1.cases_role with skipped | ⟨kind, shown⟩ | ⟨d, stray⟩
  · obtain ⟨part, fits, same⟩ := (skips_cutPiece skipped).exists_fits
    have cut := fits.cutPiece ((congrArg (· ++ _) same).trans (cutPiece_append c cs))
    rwa [show (cutPiece c cs).1 = part by rw [cut]]
  · simp [Piece.kind?, silent] at shown
  · obtain ⟨rfl, unreadable⟩ := unreadable_cutPiece stray
    rw [cutPiece_stray unreadable]
    exact .stray unreadable

theorem openString_cutString {cs : List Char} (unclosed : (cutString cs).closed = false) :
    OpenString ('"' :: cs) := by
  have whole := cutString_append cs
  have lexeme := isLexeme_cutString cs
  generalize same : '"' :: (cutString cs).raw = text at lexeme
  generalize left : (cutString cs).rest = rest at lexeme whole
  cases lexeme with
  | word word =>
    cases word with
    | fixed fixed => simp [TokenKind.spelling?] at fixed
  | string inside =>
    rw [(List.cons.inj same).2, List.append_assoc, List.singleton_append] at whole
    simp [← whole, cutString_closed inside] at unclosed
  | openString inside ends =>
    rw [(List.cons.inj same).2, List.append_nil] at whole
    exact ⟨_, _, _, inside, ends, by rw [whole]⟩

theorem cutPiece_of_openString {c : Char} {cs : List Char} (unclosed : OpenString (c :: cs)) :
    ∃ content, cutPiece c cs = (.string (c :: cs) content false, []) := by
  obtain ⟨raw, content, final, inside, ends, same⟩ := unclosed
  obtain ⟨rfl, rfl⟩ := List.cons.inj same
  exact ⟨content, cutPiece_openString inside ends⟩

theorem openString_iff (c : Char) (cs : List Char) :
    OpenString (c :: cs) ↔ (cutPiece c cs).1.fault? = some .unterminatedString := by
  constructor
  · intro unclosed
    obtain ⟨content, cut⟩ := cutPiece_of_openString unclosed
    rw [cut]
    rfl
  · fun_cases cutPiece c cs with
    | case2 rest comment => cases comment.2.1 <;> simp [Piece.fault?]
    | case3 rest cut =>
      cases closed : cut.closed with
      | false => exact fun _ => openString_cutString closed
      | true => simp [Piece.fault?]
    | _ => simp [Piece.fault?]

-- One step: a piece is put in front of what is told of the rest.

def report (error : SyntaxError) : Cause × Nat := (error.cause, error.position.offset)

def reports (start : Nat) (piece : Piece) : List (Cause × Nat) :=
  (piece.fault?.map fun cause => (cause, start)).toList

theorem extract_append_drop (cs : List Char) {start stop : Nat} (inside : start ≤ stop) :
    cs.extract start stop ++ cs.drop stop = cs.drop start := by
  have behind : cs.drop stop = (cs.drop start).drop (stop - start) := by
    rw [List.drop_drop, Nat.add_sub_cancel' inside]
  rw [behind, List.extract, List.take_append_drop]

section Step

variable {cs rest : List Char} {piece : Piece} {start : Nat}
  (here : cs.drop start = piece.source ++ rest)

include here

theorem drop_add_source : cs.drop (start + piece.source.length) = rest := by
  rw [← List.drop_drop, here, List.drop_left]

theorem extract_of_ahead {stop : Nat} (ahead : start + piece.source.length ≤ stop) :
    cs.extract start stop =
      piece.source ++ cs.extract (start + piece.source.length) stop := by
  rw [List.extract, List.extract, here, drop_add_source here, List.take_append,
    List.take_of_length_le (by omega), Nat.sub_sub]

theorem splits_of_ahead {stop : Nat} {parts : List Piece} (fits : Fits piece rest)
    (ahead : start + piece.source.length ≤ stop)
    (splits : Splits parts (cs.extract (start + piece.source.length) stop) (cs.drop stop)) :
    Splits (piece :: parts) (cs.extract start stop) (cs.drop stop) := by
  rw [extract_of_ahead here ahead]
  refine .cons ?_ splits
  rwa [extract_append_drop cs ahead, drop_add_source here]

/-- A part is put in front of the first stretch. Only a character that begins nothing adds to what
is reported. -/
theorem Ledger.part {tokens : List Token} {found : List (Cause × Nat)}
    {splits : List (List Piece)} {last : List (Cause × Nat)}
    (ledger : Ledger cs (start + piece.source.length) tokens found splits last)
    (some_ : tokens ≠ []) (fits : Fits piece rest)
    (closed : piece.fault? ≠ some .unterminatedComment)
    (ahead : ∀ token ∈ tokens, start + piece.source.length ≤ token.position.offset) :
    ∃ splits, Ledger cs start tokens (reports start piece ++ found) splits last := by
  obtain ⟨token, behind, rfl⟩ := List.exists_cons_of_ne_nil some_
  obtain ⟨split, rfl, unfinished⟩ := ledger
  obtain ⟨parts, others, first, later, rfl⟩ := List.forall₂_cons_left_iff.1 split
  have solid : ∀ text, piece ≠ .blockComment text false := by
    rintro text rfl
    exact closed rfl
  refine ⟨(piece :: parts) :: others, .cons ?_ later, ?_, ?_⟩
  · exact splits_of_ahead here fits (ahead token List.mem_cons_self) first
  -- What the piece reports stands at the front of its stretch.
  · have added (stop : Nat) : reports start piece ++
        strayReports ((start + piece.source.length, stop), parts) =
        strayReports ((start, stop), piece :: parts) := by
      cases fits with
      | openComment => exact absurd rfl closed
      | _ => rfl
    simp only [gaps, List.zip_cons_cons, List.flatMap_cons, ← added, List.append_assoc]
  · cases unfinished with
    | nothing comments strings =>
      refine .nothing (fun own member text inside => ?_) strings
      rcases List.mem_cons.1 member with rfl | member
      · rcases List.mem_cons.1 inside with same | inside
        · exact solid text same.symm
        · exact comments parts List.mem_cons_self text inside
      · exact comments own (.tail _ member) text inside
    -- A comment that runs on stays in the last stretch, which may be the one that grows.
    | comment earlier before same runs =>
      cases earlier with
      | nil =>
        obtain ⟨rfl, rfl⟩ := List.cons.inj same
        exact .comment [] (piece :: before) rfl runs
      | cons first earlier =>
        obtain ⟨rfl, rfl⟩ := List.cons.inj same
        exact .comment ((piece :: parts) :: earlier) before rfl runs
    | string member kind runs unclosed => exact .string member kind runs unclosed

end Step

section Ledgers

variable {cs : List Char}

theorem Ledger.token {start : Nat} {token : Token} {tokens : List Token}
    {found : List (Cause × Nat)} {splits : List (List Piece)} {last : List (Cause × Nat)}
    (ledger : Ledger cs token.stop tokens found splits last)
    (starts : token.position.offset = start)
    (closed : ¬ OpenString (cs.drop start)) :
    Ledger cs start (token :: tokens) found ([] :: splits) last := by
  subst starts
  obtain ⟨split, rfl, unfinished⟩ := ledger
  refine ⟨.cons ?_ split, rfl, ?_⟩
  · rw [List.extract, Nat.sub_self]
    exact .nil _
  · cases unfinished with
    | nothing comments strings =>
      refine .nothing (fun own member text => ?_) (fun own member string => ?_)
      · rcases List.mem_cons.1 member with rfl | member
        · exact List.not_mem_nil
        · exact comments own member text
      · rcases List.mem_cons.1 member with rfl | member
        · exact closed
        · exact strings own member string
    | comment earlier before same runs =>
      exact .comment ([] :: earlier) before (by rw [same]; rfl) runs
    | string member string runs unclosed => exact .string (.tail _ member) string runs unclosed

theorem endToken_offset (cs : List Char) : (endToken cs).position.offset = cs.length :=
  offset_after_start cs

theorem ledger_end (cs : List Char) : Ledger cs cs.length [endToken cs] [] [[]] [] where
  split := by
    refine .cons ?_ .nil
    rw [endToken_offset, List.extract, Nat.sub_self]
    exact .nil _
  reported := rfl
  unfinished := by
    refine .nothing (by simp) (fun token member string => ?_)
    rw [List.mem_singleton.1 member] at string
    cases string

theorem ledger_openComment {start : Nat} {piece : Piece} (here : cs.drop start = piece.source)
    (fits : Fits piece []) (unclosed : piece.fault? = some .unterminatedComment) :
    Ledger cs start [endToken cs] (reports start piece) [[piece]] (reports start piece) := by
  have length := congrArg List.length here
  have some_ := List.length_pos_iff.2 fits.source_ne_nil
  rw [List.length_drop] at length
  cases fits with
  | openComment inner =>
    refine ⟨.cons ?_ .nil, rfl, .comment [] [] rfl ?_⟩
    · rw [endToken_offset, List.drop_length, List.extract, here, List.take_of_length_le (by omega)]
      simpa using Splits.cons (.openComment inner) (.nil [])
    · dsimp only [Piece.source] at length some_
      omega
  | _ => simp [Piece.fault?] at unclosed

theorem ledger_openString {start : Nat} {token : Token} (starts : token.position.offset = start)
    (string : token.kind = .string) (stop : token.stop = cs.length)
    (unclosed : OpenString (cs.drop start)) :
    Ledger cs start [token, endToken cs] [(.unterminatedString, start)] [[], []]
      [(.unterminatedString, start)] := by
  subst starts
  refine ⟨.cons ?_ (.cons ?_ .nil), rfl, .string List.mem_cons_self string stop unclosed⟩
  · rw [List.extract, Nat.sub_self]
    exact .nil _
  · rw [endToken_offset, stop, List.extract, Nat.sub_self]
    exact .nil _

theorem offset_le_of_mem_place {position : Position} {found : List Piece}
    {placed : Position × Piece} (member : placed ∈ place position found) :
    position.offset ≤ placed.1.offset := by
  obtain ⟨before, -, -, there⟩ := mem_place member
  rw [there, Position.offset_after]
  exact Nat.le_add_right _ _

theorem ahead_of_mem_place {before rest : List Char} (whole : cs = before ++ rest)
    (found : List Piece) :
    ∀ token ∈ (place (.after .start before) found).filterMap tokenAt? ++ [endToken cs],
      before.length ≤ token.position.offset := by
  intro token member
  rcases List.mem_append.1 member with member | final
  · obtain ⟨placed, inside, shown⟩ := List.mem_filterMap.1 member
    obtain ⟨words, -, rfl⟩ := Option.map_eq_some_iff.1 shown
    rw [← offset_after_start before]
    exact offset_le_of_mem_place inside
  · rw [List.mem_singleton.1 final, endToken_offset, whole, List.length_append]
    exact Nat.le_add_right _ _

theorem Piece.fault?_of_lexeme? {piece : Piece} {lexeme : Lexeme}
    (words : piece.lexeme? = some lexeme) (closed : piece.fault? ≠ some .unterminatedString) :
    piece.fault? = none := by
  cases piece with
  | word => rfl
  | string raw content shut =>
    cases shut with
    | true => rfl
    | false => exact absurd rfl closed
  | _ => simp [Piece.lexeme?] at words

def faults (position : Position) (found : List Piece) : List (Cause × Nat) :=
  ((place position found).filterMap errorAt?).map report

theorem faults_cons (position : Position) (piece : Piece) (found : List Piece) :
    faults position (piece :: found) =
      reports position.offset piece ++ faults (position.after piece.source) found := by
  rw [faults, place, List.filterMap_cons, errorAt?, reports]
  cases piece.fault? <;> rfl

/-- The pieces behind a text have a ledger. -/
def Told (cs before : List Char) (found : List Piece) : Prop :=
  ∃ splits last, Ledger cs before.length
    ((place (.after .start before) found).filterMap tokenAt? ++ [endToken cs])
    (faults (.after .start before) found) splits last

section Run

variable {before rest : List Char} {c : Char} (whole : cs = before ++ c :: rest)
  (later : Told cs (before ++ (cutPiece c rest).1.source) (pieces (cutPiece c rest).2))

include whole later

theorem Told.token {lexeme : Lexeme} (words : (cutPiece c rest).1.lexeme? = some lexeme) :
    Told cs before ((cutPiece c rest).1 :: pieces (cutPiece c rest).2) := by
  have offset := offset_after_start before
  have here : cs.drop before.length = c :: rest := by rw [whole, List.drop_left]
  have shown : tokenAt? (.after .start before, (cutPiece c rest).1) =
      some ⟨lexeme, .after .start before, before.length + (cutPiece c rest).1.source.length⟩ := by
    rw [tokenAt?, words, Position.offset_after, offset]
    rfl
  rw [Told, faults_cons, place, List.filterMap_cons, shown, offset]
  -- Nothing stands behind an open string, so what is told of the rest is not asked for.
  by_cases unclosed : OpenString (c :: rest)
  · obtain ⟨content, cut⟩ := cutPiece_of_openString unclosed
    rw [cut] at words ⊢
    rw [← here] at unclosed
    rw [pieces]
    have length : before.length + (c :: rest).length = cs.length := by simp [whole]
    exact ⟨_, _, ledger_openString offset (by rw [← Option.some.inj words]) length unclosed⟩
  · obtain ⟨splits, last, ledger⟩ := later
    have fault := Piece.fault?_of_lexeme? words (mt (openString_iff c rest).2 unclosed)
    rw [← here] at unclosed
    rw [Position.after_append, List.length_append] at ledger
    rw [reports, fault]
    exact ⟨_, _, ledger.token offset unclosed⟩

theorem Told.gap (silent : (cutPiece c rest).1.lexeme? = none) :
    Told cs before ((cutPiece c rest).1 :: pieces (cutPiece c rest).2) := by
  have offset := offset_after_start before
  have here : cs.drop before.length = (cutPiece c rest).1.source ++ (cutPiece c rest).2 := by
    rw [whole, List.drop_left, cutPiece_append]
  have fits := fits_cutPiece silent
  have hidden : tokenAt? (.after .start before, (cutPiece c rest).1) = none := by
    rw [tokenAt?, silent]
    rfl
  rw [Told, faults_cons, place, List.filterMap_cons, hidden, offset]
  -- Only an open comment leaves nothing behind it.
  by_cases unclosed : (cutPiece c rest).1.fault? = some .unterminatedComment
  · obtain left : (cutPiece c rest).2 = [] := by
      generalize (cutPiece c rest).1 = piece at fits unclosed
      generalize (cutPiece c rest).2 = left at fits
      cases fits with
      | openComment => rfl
      | _ => simp [Piece.fault?] at unclosed
    rw [left] at here fits ⊢
    rw [List.append_nil] at here
    simp only [pieces, faults, place, List.filterMap_nil, List.map_nil, List.append_nil,
      List.nil_append]
    exact ⟨_, _, ledger_openComment here fits unclosed⟩
  · obtain ⟨splits, last, ledger⟩ := later
    have split : cs = (before ++ (cutPiece c rest).1.source) ++ (cutPiece c rest).2 := by
      rw [List.append_assoc, cutPiece_append, whole]
    have ahead := ahead_of_mem_place split (pieces (cutPiece c rest).2)
    rw [Position.after_append, List.length_append] at ledger ahead
    obtain ⟨splits, ledger⟩ := ledger.part here (by simp) fits unclosed ahead
    exact ⟨_, _, ledger⟩

end Run

/-- The run: every text is told of to its end. -/
theorem told_pieces {before rest : List Char} (whole : cs = before ++ rest) :
    Told cs before (pieces rest) := by
  fun_induction pieces rest generalizing before with
  | case1 =>
    have length : cs.length = before.length := by simp [whole]
    exact ⟨_, _, length ▸ ledger_end cs⟩
  | case2 c rest ih =>
    have later := @ih (before ++ (cutPiece c rest).1.source) (by
      rw [whole, List.append_assoc, cutPiece_append])
    cases words : (cutPiece c rest).1.lexeme? with
    | some lexeme => exact later.token whole words
    | none => exact later.gap whole words

end Ledgers

theorem pairwise_errors (source : String) : (lex source).errors.Pairwise
    fun error next => error.position.offset < next.position.offset := by
  have apart (position : Position) : (place position (pieces source.toList)).Pairwise
      fun placed next => placed.1.offset < next.1.offset := by
    fun_induction pieces source.toList generalizing position with
    | case1 => exact .nil
    | case2 c rest ih =>
      refine .cons (fun next member => ?_) (ih _)
      have taken := List.length_pos_iff.2 (cutPiece_source_ne_nil c rest)
      have behind := offset_le_of_mem_place member
      rw [Position.offset_after] at behind
      dsimp only
      omega
  refine (apart .start).filterMap _ fun placed next before error shown later shown' => ?_
  obtain ⟨cause, -, rfl⟩ := Option.map_eq_some_iff.1 shown
  obtain ⟨cause', -, rfl⟩ := Option.map_eq_some_iff.1 shown'
  exact before

theorem text_of_mem_tokens {source : String} {token : Token}
    (member : token ∈ (lex source).tokens.dropLast) (plain : token.kind ≠ .string) :
    token.text.toList = source.toList.extract token.position.offset token.stop := by
  obtain ⟨piece, before, behind, split, words, position, stop⟩ := mem_tokens member
  have offset : token.position.offset = (before.flatMap Piece.source).length := by
    rw [position, offset_after_start]
  have whole := source_pieces source.toList
  rw [split, List.flatMap_append, List.flatMap_cons] at whole
  have text : token.text.toList = piece.source := by
    cases piece with
    | word kind text =>
      rw [← Option.some.inj words, String.toList_ofList]
      rfl
    | string => exact absurd (congrArg Lexeme.kind (Option.some.inj words)).symm plain
    | _ => simp [Piece.lexeme?] at words
  rw [text, List.extract, stop, offset, ← whole, List.drop_left, Nat.add_sub_cancel_left,
    List.take_left]

/-- Every character of a source is accounted for. Tokens take some of them, one behind the other,
and what stands between the tokens splits in one way only into blanks, comments and characters that
begin nothing. The errors are these characters, each where it stands, and at last what is
unfinished. -/
structure Accounted (cs : List Char) (lexed : Lexed) : Prop where
  ends : ∃ tokens final, lexed.tokens = tokens ++ [final] ∧
    (∀ token ∈ tokens, token.kind ≠ .endOfInput) ∧ final.kind = .endOfInput ∧
    final.position.offset = cs.length ∧ final.stop = cs.length
  taken : ∀ token ∈ lexed.tokens, token.kind ≠ .endOfInput → token.position.offset < token.stop
  apart : lexed.tokens.Pairwise fun token next => token.stop ≤ next.position.offset
  spelled : ∀ token ∈ lexed.tokens, token.kind ≠ .string →
    token.text.toList = cs.extract token.position.offset token.stop
  ordered : lexed.errors.Pairwise fun error next => error.position.offset < next.position.offset
  told : ∃ splits last, Ledger cs 0 lexed.tokens (lexed.errors.map report) splits last
  unique : ∀ gap ∈ gaps 0 lexed.tokens,
    ∃! parts, Splits parts (cs.extract gap.1 gap.2) (cs.drop gap.2)

theorem lex_accounted (source : String) : Accounted source.toList (lex source) := by
  -- The run starts in front of the whole source, with nothing before it.
  have told : ∃ splits last, Ledger source.toList 0 (lex source).tokens
      ((lex source).errors.map report) splits last := @told_pieces source.toList [] _ rfl
  refine ⟨⟨_, _, tokens_eq source, fun _ => kind_ne_end_of_mem_tokens, rfl, endToken_offset _,
      endToken_offset _⟩,
    fun token member proper => forward_of_mem_tokens (mem_dropLast_tokens member proper), ?_, ?_,
    pairwise_errors source, told, ?_⟩
  · rw [tokens_eq, List.pairwise_append]
    refine ⟨pairwise_tokens source, List.pairwise_singleton _ _, fun token member final last => ?_⟩
    rw [List.mem_singleton.1 last, endToken_offset]
    exact (position_of_mem_tokens member).1
  · intro token member plain
    rw [tokens_eq] at member
    rcases List.mem_append.1 member with member | final
    · exact text_of_mem_tokens member plain
    · rw [List.mem_singleton.1 final, endToken, List.extract, Nat.sub_self]
      rfl
  · intro gap member
    obtain ⟨splits, last, ledger⟩ := told
    obtain ⟨length, split⟩ := List.forall₂_iff_get.1 ledger.split
    obtain ⟨i, inside, rfl⟩ := List.getElem_of_mem member
    exact ⟨_, split i inside (length ▸ inside), fun others other => other.unique (split i inside _)⟩

end ArchDiagram.Lexer
