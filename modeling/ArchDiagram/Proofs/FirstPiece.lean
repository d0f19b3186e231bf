import ArchDiagram.Proofs.Lexemes

/-!
What can stand at the front of a text: a blank, a comment or a lexeme. These are told by their
shapes, without the lexer, and the first piece that the lexer cuts off is shown to be the one that
the shapes allow. A string and a comment end where they are closed, so only what is not closed
depends on where the text ends.
-/

namespace ArchDiagram.Lexer

/-- The inside of a string and what it says: characters that stand for themselves, and escapes. -/
inductive Inside : List Char → List Char → Prop
  | nil : Inside [] []
  | plain {c : Char} {raw content : List Char} : c ≠ '"' → c ≠ '\\' → Inside raw content →
      Inside (c :: raw) (c :: content)
  | escape {c : Char} {raw content : List Char} : Inside raw content →
      Inside ('\\' :: c :: raw) (escaped c :: content)

/-- A text is a lexeme of a kind, in front of the rest of a source. Only a string asks for the rest:
one that is not closed takes all of the source, with a lone backslash at its end. -/
inductive IsLexeme : TokenKind → List Char → List Char → Prop
  | word {kind : TokenKind} {text rest : List Char} : Word kind text → IsLexeme kind text rest
  | string {raw content rest : List Char} : Inside raw content →
      IsLexeme .string ('"' :: (raw ++ ['"'])) rest
  | openString {raw content final : List Char} : Inside raw content →
      final = [] ∨ final = ['\\'] → IsLexeme .string ('"' :: (raw ++ final)) []

/-- A text is a blank or a comment, in front of the rest of a source. A comment that is not closed
takes all of the source. -/
inductive Skips : List Char → List Char → Prop
  | blank {c : Char} {rest : List Char} : isBlank c = true → Skips [c] rest
  | lineComment {text rest : List Char} : '\n' ∉ text → (rest = [] ∨ ∃ behind, rest = '\n' :: behind) →
      Skips ('/' :: '/' :: text) rest
  | blockComment {text rest : List Char} : ¬ ['*', '/'] <:+: text →
      Skips ('/' :: '*' :: (text ++ ['*', '/'])) rest
  | openComment {text : List Char} : ¬ ['*', '/'] <:+: text → Skips ('/' :: '*' :: text) []

structure Unreadable (cs : List Char) : Prop where
  solid : ∀ {text rest : List Char}, text ++ rest = cs → ¬ Skips text rest
  strange : ∀ {kind : TokenKind} {text rest : List Char}, text ++ rest = cs →
    ¬ IsLexeme kind text rest

theorem IsLexeme.ne_nil {kind : TokenKind} {text rest : List Char}
    (lexeme : IsLexeme kind text rest) : text ≠ [] := by
  cases lexeme with
  | word word => exact word.ne_nil
  | string | openString => exact List.cons_ne_nil _ _

theorem Skips.ne_nil {text rest : List Char} (skips : Skips text rest) : text ≠ [] := by
  cases skips <;> exact List.cons_ne_nil _ _

theorem cutString_plain {c : Char} (quote : c ≠ '"') (backslash : c ≠ '\\') (cs : List Char) :
    cutString (c :: cs) = { cutString cs with
      raw := c :: (cutString cs).raw, content := c :: (cutString cs).content } := by
  rw [cutString]
  · exact quote
  · exact fun same _ => backslash same
  · exact fun _ _ same _ => backslash same

theorem cutString_inside {raw content : List Char} (inside : Inside raw content) (cs : List Char) :
    cutString (raw ++ cs) = { cutString cs with
      raw := raw ++ (cutString cs).raw, content := content ++ (cutString cs).content } := by
  induction inside with
  | nil => rfl
  | plain quote backslash _ ih => rw [List.cons_append, cutString_plain quote backslash, ih]; rfl
  | escape _ ih => rw [List.cons_append, List.cons_append, cutString, ih]; rfl

theorem cutString_closed {raw content : List Char} (inside : Inside raw content)
    (rest : List Char) :
    cutString (raw ++ '"' :: rest) = ⟨raw ++ ['"'], content, true, rest⟩ := by
  simp [cutString_inside inside, cutString]

theorem cutString_open {raw content final : List Char} (inside : Inside raw content)
    (ends : final = [] ∨ final = ['\\']) :
    cutString (raw ++ final) = ⟨raw ++ final, content, false, []⟩ := by
  rw [cutString_inside inside]
  rcases ends with rfl | rfl <;> simp [cutString]

theorem isLexeme_cutString (cs : List Char) :
    IsLexeme .string ('"' :: (cutString cs).raw) (cutString cs).rest := by
  -- The inside grows at its front, so the quote is put before it at the end.
  have shape : ∃ raw, (∃ content, Inside raw content) ∧ ((cutString cs).raw = raw ++ ['"'] ∨
      (cutString cs).rest = [] ∧ ((cutString cs).raw = raw ∨ (cutString cs).raw = raw ++ ['\\'])) := by
    fun_induction cutString cs with
    | case1 => exact ⟨[], ⟨[], .nil⟩, .inr ⟨rfl, .inl rfl⟩⟩
    | case2 => exact ⟨[], ⟨[], .nil⟩, .inl rfl⟩
    | case3 => exact ⟨[], ⟨[], .nil⟩, .inr ⟨rfl, .inr rfl⟩⟩
    | case4 c rest cut ih =>
      obtain ⟨raw, ⟨content, inside⟩, ends⟩ := ih
      exact ⟨'\\' :: c :: raw, ⟨_, inside.escape⟩, by simpa [cut] using ends⟩
    | case5 c rest quote lone backslash cut ih =>
      obtain ⟨raw, ⟨content, inside⟩, ends⟩ := ih
      have plain : c ≠ '\\' := by
        rintro rfl
        cases rest with
        | nil => exact lone rfl rfl
        | cons d rest => exact backslash d rest rfl rfl
      exact ⟨c :: raw, ⟨_, inside.plain quote plain⟩, by simpa [cut] using ends⟩
  obtain ⟨raw, ⟨content, inside⟩, closed | ⟨rest, bare | lone⟩⟩ := shape
  · rw [closed]
    exact .string inside
  · rw [rest, bare, ← List.append_nil raw]
    exact .openString inside (.inl rfl)
  · rw [rest, lone]
    exact .openString inside (.inr rfl)

theorem cutBlockComment_cons {c : Char} {cs : List Char} (inner : ¬ ['*', '/'] <+: c :: cs) :
    cutBlockComment (c :: cs) = (c :: (cutBlockComment cs).1, (cutBlockComment cs).2) := by
  rw [cutBlockComment]
  rintro rest rfl rfl
  exact inner ⟨rest, rfl⟩

theorem cutBlockComment_closed {text : List Char} (inner : ¬ ['*', '/'] <:+: text)
    (rest : List Char) :
    cutBlockComment (text ++ '*' :: '/' :: rest) = (text ++ ['*', '/'], true, rest) := by
  induction text with
  | nil => simp [cutBlockComment]
  | cons c text ih =>
    rw [List.infix_cons_iff, not_or] at inner
    have apart : ¬ ['*', '/'] <+: c :: (text ++ '*' :: '/' :: rest) := by
      intro front
      obtain ⟨rfl, front⟩ := List.cons_prefix_cons.1 front
      cases text with
      | nil => simp at front
      | cons d text => exact inner.1 (by simpa using front)
    rw [List.cons_append, cutBlockComment_cons apart, ih inner.2]
    rfl

theorem cutBlockComment_open {text : List Char} (inner : ¬ ['*', '/'] <:+: text) :
    cutBlockComment text = (text, false, []) := by
  induction text with
  | nil => rfl
  | cons c text ih =>
    rw [List.infix_cons_iff, not_or] at inner
    rw [cutBlockComment_cons inner.1, ih inner.2]

theorem skips_cutBlockComment (cs : List Char) :
    Skips ('/' :: '*' :: (cutBlockComment cs).1) (cutBlockComment cs).2.2 := by
  -- Induction along the cut: a character that begins no end mark joins the inside.
  have shape : ∃ text, ¬ ['*', '/'] <:+: text ∧ ((cutBlockComment cs).1 = text ++ ['*', '/'] ∨
      (cutBlockComment cs).1 = text ∧ (cutBlockComment cs).2.2 = []) := by
    fun_induction cutBlockComment cs with
    | case1 => exact ⟨[], by simp, .inr ⟨rfl, rfl⟩⟩
    | case2 => exact ⟨[], by simp, .inl rfl⟩
    | case3 c rest noEnd comment closed after same ih =>
      have whole := cutBlockComment_append rest
      simp only [same] at ih whole ⊢
      obtain ⟨text, inner, ends⟩ := ih
      have front : text <+: rest := by
        rcases ends with rfl | ⟨rfl, -⟩ <;> simp [← whole]
      refine ⟨c :: text, ?_, by simpa using ends⟩
      rw [List.infix_cons_iff, not_or]
      -- A mark across the front would have ended the comment one character earlier.
      refine ⟨fun early => ?_, inner⟩
      obtain ⟨rfl, slash⟩ := List.cons_prefix_cons.1 early
      obtain ⟨behind, rfl⟩ := slash.trans front
      exact noEnd behind rfl rfl
  obtain ⟨text, inner, closed | ⟨bare, rest⟩⟩ := shape
  · rw [closed]
    exact .blockComment inner
  · rw [bare, rest]
    exact .openComment inner

-- The first piece, by what stands at the front. The first characters of blanks, comments, strings
-- and words are apart.

theorem isWordChar_of_blank {c : Char} (blank : isBlank c = true) : isWordChar c = false := by
  simp only [isBlank, Bool.or_eq_true, decide_eq_true_eq] at blank
  rcases blank with ((rfl | rfl) | rfl) | rfl <;> decide

theorem cutPiece_blank {c : Char} (blank : isBlank c = true) (rest : List Char) :
    cutPiece c rest = (.blank c, rest) := by
  fun_cases cutPiece c rest with
  | case4 => rfl
  | case5 | case6 => contradiction
  | _ => exact absurd blank (by decide)

theorem cutPiece_lineComment {text rest : List Char} (line : '\n' ∉ text)
    (ends : rest = [] ∨ ∃ behind, rest = '\n' :: behind) :
    cutPiece '/' ('/' :: (text ++ rest)) = (.lineComment ('/' :: '/' :: text), rest) := by
  have inside : ∀ c ∈ text, decide (c ≠ '\n') = true := fun c member =>
    decide_eq_true fun same => line (same ▸ member)
  rw [cutPiece, List.takeWhile_append_of_pos inside, List.dropWhile_append_of_pos inside]
  rcases ends with rfl | ⟨behind, rfl⟩ <;> simp

theorem cutPiece_blockComment {text : List Char} (inner : ¬ ['*', '/'] <:+: text)
    (rest : List Char) : cutPiece '/' ('*' :: (text ++ '*' :: '/' :: rest)) =
      (.blockComment ('/' :: '*' :: (text ++ ['*', '/'])) true, rest) := by
  rw [cutPiece, cutBlockComment_closed inner]

theorem cutPiece_openComment {text : List Char} (inner : ¬ ['*', '/'] <:+: text) :
    cutPiece '/' ('*' :: text) = (.blockComment ('/' :: '*' :: text) false, []) := by
  rw [cutPiece, cutBlockComment_open inner]

theorem cutPiece_string {raw content : List Char} (inside : Inside raw content)
    (rest : List Char) : cutPiece '"' (raw ++ '"' :: rest) =
      (.string ('"' :: (raw ++ ['"'])) content true, rest) := by
  rw [cutPiece, cutString_closed inside]

theorem cutPiece_openString {raw content final : List Char} (inside : Inside raw content)
    (ends : final = [] ∨ final = ['\\']) : cutPiece '"' (raw ++ final) =
      (.string ('"' :: (raw ++ final)) content false, []) := by
  rw [cutPiece, cutString_open inside ends]

theorem cutPiece_word {c : Char} {cs : List Char} {cut : Cut}
    (found : cutLexeme? (c :: cs) = some cut) : cutPiece c cs = (.word cut.kind cut.text, cut.rest) := by
  have front : isWordChar c = true := by
    obtain ⟨some_, whole⟩ := splits_of_cutLexeme? found
    obtain ⟨d, text, same⟩ := List.exists_cons_of_ne_nil some_
    rw [same] at whole
    obtain ⟨rfl, -⟩ := List.cons.inj whole
    exact (word_of_cutLexeme? found).isWordChar d (by simp [same])
  fun_cases cutPiece c cs with
  | case4 c rest _ _ _ blank => simp [isWordChar_of_blank blank] at front
  | case5 c rest _ _ _ _ other shown =>
    obtain rfl := Option.some.inj (shown.symm.trans found)
    rfl
  | case6 c rest _ _ _ _ none_ => simp [none_] at found
  | _ => exact absurd front (by decide)

namespace Piece

def kind? (piece : Piece) : Option TokenKind := piece.lexeme?.map (·.kind)

def isSkipped : Piece → Bool
  | blank _ | lineComment _ | blockComment _ _ => true
  | stray _ | word _ _ | string _ _ _ => false

theorem cases_role (piece : Piece) :
    piece.isSkipped = true ∨ (∃ kind, piece.kind? = some kind) ∨ ∃ c, piece = stray c := by
  cases piece with
  | blank | lineComment | blockComment => exact .inl rfl
  | stray c => exact .inr (.inr ⟨c, rfl⟩)
  | word | string => exact .inr (.inl ⟨_, rfl⟩)

theorem eq_stray_of_fault? {piece : Piece} {c : Char}
    (fault : piece.fault? = some (.unexpectedCharacter c)) : piece = stray c := by
  cases piece with
  | stray d => simpa [fault?] using fault
  | blockComment text closed => cases closed <;> simp [fault?] at fault
  | string raw content closed => cases closed <;> simp [fault?] at fault
  | _ => simp [fault?] at fault

end Piece

theorem skips_cutPiece {c : Char} {cs : List Char} (skipped : (cutPiece c cs).1.isSkipped = true) :
    Skips (cutPiece c cs).1.source (cutPiece c cs).2 := by
  revert skipped
  fun_cases cutPiece c cs with
  | case1 rest =>
    intro _
    refine .lineComment (fun member => by simpa using List.mem_takeWhile_imp member) ?_
    have stop := List.head?_dropWhile_not (· ≠ '\n') rest
    cases left : rest.dropWhile (· ≠ '\n') with
    | nil => exact .inl rfl
    | cons d behind =>
      rw [left] at stop
      obtain rfl : d = '\n' := by simpa using stop
      exact .inr ⟨behind, rfl⟩
  | case2 rest => exact fun _ => skips_cutBlockComment rest
  | case4 c rest _ _ _ blank => exact fun _ => .blank blank
  | _ => simp [Piece.isSkipped]

theorem isLexeme_cutPiece {c : Char} {cs : List Char} {kind : TokenKind}
    (shown : (cutPiece c cs).1.kind? = some kind) :
    IsLexeme kind (cutPiece c cs).1.source (cutPiece c cs).2 := by
  revert shown
  fun_cases cutPiece c cs with
  | case3 =>
    intro shown
    rw [← Option.some.inj shown]
    exact isLexeme_cutString _
  | case5 c rest _ _ _ _ cut found =>
    rintro ⟨⟩
    exact .word (word_of_cutLexeme? found)
  | _ => simp [Piece.kind?, Piece.lexeme?]

theorem cutPiece_of_skips {text rest : List Char} (skips : Skips text rest) {c : Char}
    {cs : List Char} (whole : text ++ rest = c :: cs) :
    (cutPiece c cs).1.isSkipped = true ∧ (cutPiece c cs).1.source = text := by
  cases skips with
  | blank blank =>
    obtain ⟨rfl, rfl⟩ := List.cons.inj whole
    rw [cutPiece_blank blank]
    exact ⟨rfl, rfl⟩
  | lineComment line ends =>
    obtain ⟨rfl, rfl⟩ := List.cons.inj whole
    rw [List.append_eq, List.cons_append, cutPiece_lineComment line ends]
    exact ⟨rfl, rfl⟩
  | blockComment inner =>
    obtain ⟨rfl, rfl⟩ := List.cons.inj whole
    simp only [List.append_eq, List.cons_append, List.append_assoc, List.nil_append,
      cutPiece_blockComment inner]
    exact ⟨rfl, rfl⟩
  | openComment inner =>
    obtain ⟨rfl, rfl⟩ := List.cons.inj whole
    rw [List.append_eq, List.append_nil, cutPiece_openComment inner]
    exact ⟨rfl, rfl⟩

theorem cutPiece_of_isLexeme {kind : TokenKind} {text rest : List Char}
    (lexeme : IsLexeme kind text rest) {c : Char} {cs : List Char} (whole : text ++ rest = c :: cs) :
    ∃ own, (cutPiece c cs).1.kind? = some own ∧ text.length ≤ (cutPiece c cs).1.source.length ∧
      ((cutPiece c cs).1.source = text → Wins own kind) := by
  cases lexeme with
  | word word =>
    obtain ⟨cut, found, covers⟩ := word.covers rest
    rw [whole] at found
    rw [cutPiece_word found]
    exact ⟨cut.kind, rfl, covers.length_le, covers.wins⟩
  | string inside =>
    obtain ⟨rfl, rfl⟩ := List.cons.inj whole
    simp only [List.append_eq, List.append_assoc, List.cons_append, List.nil_append,
      cutPiece_string inside]
    exact ⟨.string, rfl, le_rfl, fun _ => .same _⟩
  | openString inside ends =>
    obtain ⟨rfl, rfl⟩ := List.cons.inj whole
    rw [List.append_eq, List.append_nil, cutPiece_openString inside ends]
    exact ⟨.string, rfl, le_rfl, fun _ => .same _⟩

theorem unreadable_cutPiece {c d : Char} {cs : List Char} (stray : (cutPiece c cs).1 = .stray d) :
    d = c ∧ Unreadable (c :: cs) := by
  constructor
  · have whole := cutPiece_append c cs
    rw [stray] at whole
    exact (List.cons.inj whole).1
  · constructor
    · intro text rest whole skips
      have skipped := (cutPiece_of_skips skips whole).1
      simp [stray, Piece.isSkipped] at skipped
    · intro kind text rest whole lexeme
      obtain ⟨own, shown, -⟩ := cutPiece_of_isLexeme lexeme whole
      simp [stray, Piece.kind?, Piece.lexeme?] at shown

theorem cutPiece_stray {c : Char} {cs : List Char} (unreadable : Unreadable (c :: cs)) :
    cutPiece c cs = (.stray c, cs) := by
  have whole := cutPiece_append c cs
  rcases (cutPiece c cs).1.cases_role with skipped | ⟨kind, shown⟩ | ⟨d, stray⟩
  · exact absurd (skips_cutPiece skipped) (unreadable.solid whole)
  · exact absurd (isLexeme_cutPiece shown) (unreadable.strange whole)
  · rw [stray] at whole
    obtain ⟨rfl, rest⟩ := List.cons.inj whole
    exact Prod.ext stray rest

end ArchDiagram.Lexer
