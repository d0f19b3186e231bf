import ArchDiagram.Proofs.Gaps
import ArchDiagram.Proofs.Printing

/-!
Texts one behind the other. A text in which every string and comment is closed is cut in the same
way in front of a blank, since no word goes on with a blank and no character begins a word with one;
only a line comment at its end asks for a line feed.
-/

namespace ArchDiagram.Lexer

theorem cutString_append_of_closed {cs : List Char} (closed : (cutString cs).closed = true)
    (more : List Char) : cutString (cs ++ more) =
      { cutString cs with rest := (cutString cs).rest ++ more } := by
  fun_induction cutString cs with
  | case1 | case3 => simp at closed
  | case2 => rfl
  | case4 c rest cut ih =>
    rw [List.cons_append, List.cons_append, cutString, ih closed]
  | case5 c rest quote lone backslash cut ih =>
    have plain : c ≠ '\\' := by
      rintro rfl
      cases rest with
      | nil => exact lone rfl rfl
      | cons d rest => exact backslash d rest rfl rfl
    rw [List.cons_append, cutString_plain quote plain, ih closed]

def Piece.isLineComment : Piece → Bool
  | lineComment _ => true
  | blank _ | blockComment _ _ | stray _ | word _ _ | string _ _ _ => false

def Piece.isOpen : Piece → Bool
  | blockComment _ closed | string _ _ closed => !closed
  | blank _ | lineComment _ | stray _ | word _ _ => false

theorem Piece.isOpen_iff (piece : Piece) : piece.isOpen = true ↔
    piece.fault? = some .unterminatedComment ∨ piece.fault? = some .unterminatedString := by
  cases piece with
  | blockComment text closed => cases closed <;> simp [isOpen, fault?]
  | string raw content closed => cases closed <;> simp [isOpen, fault?]
  | _ => simp [isOpen, fault?]

theorem Piece.isOpen_of_faultless {piece : Piece} (faultless : piece.fault? = none) :
    piece.isOpen = false := by
  rw [← Bool.not_eq_true, isOpen_iff, faultless]
  simp

section Blank

variable {c : Char} {cs : List Char} {blank : Char} (isBlank_ : isBlank blank = true)
  (rest : List Char)

include isBlank_

theorem prefix_of_cutLexeme?_blank {cut : Cut}
    (found : cutLexeme? (cs ++ blank :: rest) = some cut) : cut.text <+: cs := by
  have word := word_of_cutLexeme? found
  have parts := (splits_of_cutLexeme? found).2
  rcases List.append_eq_append_iff.1 parts with ⟨more, same, -⟩ | ⟨more, whole, same⟩
  · exact ⟨more, same.symm⟩
  · cases more with
    | nil => simp [whole]
    | cons d more =>
      obtain ⟨rfl, -⟩ := List.cons.inj same
      have inner := word.isWordChar blank (by simp [whole])
      simp [isWordChar_of_blank isBlank_] at inner

theorem cutLexeme?_append_blank {cut : Cut} (found : cutLexeme? cs = some cut) :
    cutLexeme? (cs ++ blank :: rest) = some { cut with rest := cut.rest ++ blank :: rest } := by
  obtain ⟨kind, text, left⟩ := cut
  have word : Word kind text := word_of_cutLexeme? found
  obtain rfl : text ++ left = cs := (splits_of_cutLexeme? found).2
  obtain ⟨⟨own, front, behind⟩, longer, length, wins⟩ := word.covers (left ++ blank :: rest)
  rw [← List.append_assoc] at longer
  have own_ : Word own front := word_of_cutLexeme? longer
  have whole : front ++ behind = text ++ (left ++ blank :: rest) :=
    ((splits_of_cutLexeme? longer).2).trans (List.append_assoc ..)
  obtain ⟨more, same⟩ : front <+: text ++ left := prefix_of_cutLexeme?_blank isBlank_ rest longer
  obtain ⟨cut, short, least, back⟩ := own_.covers more
  rw [same, found] at short
  obtain rfl := Option.some.inj short
  obtain rfl : front = text := by
    have part : text <+: front :=
      List.prefix_of_prefix_length_le ⟨_, whole.symm⟩ (List.prefix_append front behind) length
    exact (part.eq_of_length (Nat.le_antisymm length least)).symm
  obtain rfl : own = kind := (wins rfl).antisymm (back rfl)
  rw [longer, List.append_cancel_left whole]

theorem cutLexeme?_append_blank_eq_none (none_ : cutLexeme? cs = none) :
    cutLexeme? (cs ++ blank :: rest) = none := by
  cases found : cutLexeme? (cs ++ blank :: rest) with
  | none => rfl
  | some cut =>
    obtain ⟨more, rfl⟩ := prefix_of_cutLexeme?_blank isBlank_ rest found
    obtain ⟨_, shorter, -⟩ := (word_of_cutLexeme? found).covers more
    rw [none_] at shorter
    cases shorter

theorem cutPiece_append_blank_of_stray {d : Char} (stray : (cutPiece c cs).1 = .stray d) :
    cutPiece c (cs ++ blank :: rest) = ((cutPiece c cs).1, (cutPiece c cs).2 ++ blank :: rest) := by
  -- A comment would have to begin with the blank.
  have inside {mark : Char} {behind : List Char} (solid : isBlank mark = false)
      (same : cs ++ blank :: rest = mark :: behind) : ∃ more, cs = mark :: more := by
    cases cs with
    | nil =>
      obtain ⟨rfl, -⟩ := List.cons.inj same
      simp [isBlank_] at solid
    | cons e more =>
      obtain ⟨rfl, -⟩ := List.cons.inj same
      exact ⟨more, rfl⟩
  revert stray
  fun_cases cutPiece c cs with
  | case6 c cs line block string solid none_ =>
    rintro -
    have lone := cutLexeme?_append_blank_eq_none isBlank_ rest none_
    rw [List.cons_append] at lone
    change cutPiece c (cs ++ blank :: rest) = (.stray c, cs ++ blank :: rest)
    unfold cutPiece
    split
    · next behind same =>
      obtain ⟨more, rfl⟩ := inside rfl same
      exact (line more rfl rfl).elim
    · next behind same =>
      obtain ⟨more, rfl⟩ := inside rfl same
      exact (block more rfl rfl).elim
    · exact (string rfl).elim
    · simp [solid, lone]
  | _ => simp

/-- What is cut at the front of a text, and closed there, is cut there in front of a blank. -/
theorem cutPiece_append_blank (closed : (cutPiece c cs).1.isOpen = false)
    (line : blank = '\n' ∨ (cutPiece c cs).1.isLineComment = false) :
    cutPiece c (cs ++ blank :: rest) =
      ((cutPiece c cs).1, (cutPiece c cs).2 ++ blank :: rest) := by
  rcases (cutPiece c cs).1.cases_role with skipped | ⟨kind, shown⟩ | ⟨d, stray⟩
  · have silent : (cutPiece c cs).1.lexeme? = none := by
      generalize (cutPiece c cs).1 = piece at skipped
      cases piece with
      | blank | lineComment | blockComment => rfl
      | stray | word | string => simp [Piece.isSkipped] at skipped
    have fits := fits_cutPiece silent
    have whole := cutPiece_append c cs
    generalize cutPiece c cs = cut at *
    obtain ⟨piece, left⟩ := cut
    dsimp only at *
    have ahead : Fits piece (left ++ blank :: rest) := by
      cases fits with
      | blank blank => exact .blank blank
      | @lineComment text _ plain ends =>
        refine .lineComment plain (.inr ?_)
        rcases ends with rfl | ⟨behind, rfl⟩
        · exact ⟨rest, by rw [line.resolve_right (by simp [Piece.isLineComment]), List.nil_append]⟩
        · exact ⟨_, List.cons_append⟩
      | blockComment inner => exact .blockComment inner
      | openComment => simp [Piece.isOpen] at closed
      | stray => simp [Piece.isSkipped] at skipped
    exact ahead.cutPiece (by rw [← List.append_assoc, whole, List.cons_append])
  · revert closed shown
    fun_cases cutPiece c cs with
    | case3 cs cut =>
      intro closed _
      have ends : cut.closed = true := by simpa [Piece.isOpen] using closed
      rw [cutPiece, cutString_append_of_closed ends]
    | case5 c cs _ _ _ _ cut found =>
      intro _ _
      exact cutPiece_word (cutLexeme?_append_blank isBlank_ rest found)
    | _ => simp [Piece.kind?, Piece.lexeme?]
  · exact cutPiece_append_blank_of_stray isBlank_ rest stray

/-- A text is cut as it is alone, unless it runs on, and a blank behind it begins anew. -/
theorem pieces_append_blank {text : List Char}
    (closed : ∀ piece ∈ pieces text, piece.isOpen = false)
    (line : blank = '\n' ∨ ∀ piece ∈ pieces text, piece.isLineComment = false) :
    pieces (text ++ blank :: rest) = pieces text ++ pieces (blank :: rest) := by
  fun_induction pieces text with
  | case1 => rfl
  | case2 c cs ih =>
    have first := cutPiece_append_blank isBlank_ rest (closed _ List.mem_cons_self)
      (line.imp_right fun none_ => none_ _ List.mem_cons_self)
    rw [List.cons_append, pieces, first, List.cons_append]
    rw [ih (fun piece member => closed piece (.tail _ member))
      (line.imp_right fun none_ piece member => none_ piece (.tail _ member))]

theorem Reads.of_blank {text : List Char}
    (faultless : ∀ piece ∈ pieces text, piece.fault? = none)
    (line : blank = '\n' ∨ ∀ piece ∈ pieces text, piece.isLineComment = false) :
    Reads text (blank :: rest) ((pieces text).filterMap Piece.lexeme?) [] :=
  ⟨pieces text,
    pieces_append_blank isBlank_ rest
      (fun piece member => Piece.isOpen_of_faultless (faultless piece member)) line,
    rfl, List.filterMap_eq_nil_iff.2 faultless⟩

end Blank

end ArchDiagram.Lexer
