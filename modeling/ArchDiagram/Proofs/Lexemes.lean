import ArchDiagram.Proofs.Numbers
import Mathlib.Tactic.FinCases

/-!
The words of the language by their shapes, and the cuts of the lexer as finding the longest one.
The cut that is tried first wins, so a cut of a later class must never be the longer one: where two
classes share a first character, the order of the cuts decides, and within the operators the order
of the table.
-/

namespace ArchDiagram.Lexer

open Syntax (Numeric IsDigits)

/-- A letter or underscore with letters, underscores and digits behind it. -/
def IsName : List Char → Prop
  | [] => False
  | c :: rest => isIdentifierStart c = true ∧ ∀ d ∈ rest, isIdentifierPart d = true

/-- The texts of a kind of token, strings apart. A reserved word is a text of two kinds. -/
inductive Word : TokenKind → List Char → Prop
  | fixed {kind : TokenKind} {spelling : String} :
      kind.spelling? = some spelling → Word kind spelling.toList
  | identifier {text : List Char} : IsName text → Word .identifier text
  | number {text : List Char} : Numeric text → Word .number text
  | color {digits : List Char} : digits.length = 6 → (∀ d ∈ digits, isColorDigit d = true) →
      Word .color ('#' :: digits)

/-- Which of its kinds a text gets: a keyword wins over an identifier. -/
inductive Wins : TokenKind → TokenKind → Prop
  | same (kind : TokenKind) : Wins kind kind
  | keyword (keyword : Keyword) : Wins (.keyword keyword) .identifier

/-- The characters that words are made of. Each of them begins a word. -/
def isWordChar (c : Char) : Bool := isIdentifierPart c || c = '*' || (Mark.ofChar? c).isSome

theorem isIdentifierStart_iff {c : Char} : isIdentifierStart c = true ↔
    c = '_' ∨ ('a' ≤ c ∧ c ≤ 'z') ∨ ('A' ≤ c ∧ c ≤ 'Z') := by
  simp [isIdentifierStart, or_assoc]

theorem isDigit_eq_false_of_start {c : Char} (start : isIdentifierStart c = true) :
    isDigit c = false := by
  rw [← Bool.not_eq_true, Syntax.isDigit_iff]
  rintro ⟨-, high⟩
  have high : c.toNat ≤ 57 := high
  rcases isIdentifierStart_iff.1 start with rfl | ⟨low, -⟩ | ⟨low, -⟩
  · exact absurd high (by decide)
  · have low : 97 ≤ c.toNat := low
    omega
  · have low : 65 ≤ c.toNat := low
    omega

theorem isIdentifierPart_of_color {c : Char} (digit : isColorDigit c = true) :
    isIdentifierPart c = true := by
  simp only [isColorDigit, isIdentifierPart, isIdentifierStart, Bool.or_eq_true, Bool.and_eq_true,
    decide_eq_true_eq] at digit ⊢
  have small : 'f' ≤ 'z' := by decide
  have capital : 'F' ≤ 'Z' := by decide
  rcases digit with (digit | ⟨low, high⟩) | ⟨low, high⟩
  · exact .inr digit
  · exact .inl (.inl (.inr ⟨low, Char.le_trans high small⟩))
  · exact .inl (.inr ⟨low, Char.le_trans high capital⟩)

theorem isWordChar_of_part {c : Char} (part : isIdentifierPart c = true) : isWordChar c = true := by
  simp [isWordChar, part]

theorem isWordChar_of_digit {c : Char} (digit : isDigit c = true) : isWordChar c = true :=
  isWordChar_of_part (by simp [isIdentifierPart, digit])

theorem isName_word (keyword : Keyword) : IsName keyword.word.toList := by
  cases keyword with
  | entity kind => cases kind <;> exact ⟨by decide, List.all_eq_true.1 (by decide)⟩
  | modifier word => cases word <;> exact ⟨by decide, List.all_eq_true.1 (by decide)⟩
  | builtin type => cases type <;> exact ⟨by decide, List.all_eq_true.1 (by decide)⟩
  | _ => exact ⟨by decide, List.all_eq_true.1 (by decide)⟩

theorem IsName.isWordChar {text : List Char} (name : IsName text) :
    ∀ c ∈ text, isWordChar c = true := by
  cases text with
  | nil => exact name.elim
  | cons c rest =>
    intro d member
    rcases List.mem_cons.1 member with rfl | member
    · exact isWordChar_of_part (by simp [isIdentifierPart, name.1])
    · exact isWordChar_of_part (name.2 d member)

theorem ofChar?_char (mark : Mark) : Mark.ofChar? mark.char = some mark := by
  cases mark <;> rfl

def operatorText (kind : TokenKind) : List Char := (kind.spelling?.getD "").toList

theorem spelling?_cases {kind : TokenKind} {spelling : String}
    (fixed : kind.spelling? = some spelling) :
    (∃ keyword, kind = .keyword keyword ∧ spelling = keyword.word) ∨
    (kind ∈ operatorKinds ∧ spelling.toList = operatorText kind) ∨
    ∃ mark, kind = .mark mark ∧ spelling.toList = [mark.char] := by
  have text : spelling.toList = operatorText kind := by rw [operatorText, fixed, Option.getD_some]
  cases kind with
  | keyword word => exact .inl ⟨word, rfl, (Option.some.inj fixed).symm⟩
  | relation operator =>
    exact .inr (.inl ⟨List.mem_append_left _ (List.mem_map_of_mem operator.mem_all), text⟩)
  | stereotypeOpen => exact .inr (.inl ⟨by decide, text⟩)
  | dots => exact .inr (.inl ⟨by decide, text⟩)
  | mark sign =>
    refine .inr (.inr ⟨sign, rfl, ?_⟩)
    rw [← Option.some.inj fixed, String.toList_singleton]
  | _ => simp [TokenKind.spelling?] at fixed

theorem isWordChar_operatorText :
    ∀ kind ∈ operatorKinds, (operatorText kind).all isWordChar = true := by
  decide

theorem Word.isWordChar {kind : TokenKind} {text : List Char} (word : Word kind text) :
    ∀ c ∈ text, isWordChar c = true := by
  intro c member
  cases word with
  | @fixed _ spelling fixed =>
    rcases spelling?_cases fixed with ⟨keyword, rfl, rfl⟩ | ⟨operator, same⟩ | ⟨mark, rfl, same⟩
    · exact (isName_word keyword).isWordChar c member
    · rw [same] at member
      exact List.all_eq_true.1 (isWordChar_operatorText kind operator) c member
    · rw [same] at member
      simp [List.mem_singleton.1 member, Lexer.isWordChar, ofChar?_char]
  | identifier name => exact name.isWordChar c member
  | number numeric =>
    rcases numeric.plain c member with digit | rfl | rfl
    · exact isWordChar_of_digit digit
    · decide
    · decide
  | color _ digits =>
    rcases List.mem_cons.1 member with rfl | member
    · decide
    · exact isWordChar_of_part (isIdentifierPart_of_color (digits c member))

theorem Word.ne_nil {kind : TokenKind} {text : List Char} (word : Word kind text) : text ≠ [] := by
  cases word with
  | @fixed _ spelling fixed =>
    rcases spelling?_cases fixed with ⟨keyword, rfl, rfl⟩ | ⟨operator, same⟩ | ⟨mark, rfl, same⟩
    · intro empty
      simpa [empty, IsName] using isName_word keyword
    · rw [same]
      exact operatorKinds_ne_nil kind operator
    · simp [same]
  | identifier name =>
    rintro rfl
    exact name
  | number numeric =>
    obtain ⟨-, digits, -⟩ := numeric
    simp [digits.1]
  | color => exact List.cons_ne_nil _ _

theorem numeric_cutUnsigned {d : Char} {cs : List Char} (sign : List Char) (digit : isDigit d = true)
    (signed : sign = [] ∨ sign = ['-']) : Numeric (sign ++ (cutUnsigned (d :: cs)).1) := by
  have digits : Syntax.IsDigits ((d :: cs).takeWhile isDigit) :=
    ⟨by simp [digit], fun c member => List.mem_takeWhile_imp member⟩
  refine .mk signed digits ?_
  fun_cases cutFraction ((d :: cs).dropWhile isDigit) with
  | case1 e rest first =>
    right
    refine ⟨e :: rest.takeWhile isDigit, ⟨by simp, fun c member => ?_⟩, rfl⟩
    rcases List.mem_cons.mp member with rfl | member
    · exact first
    · exact List.mem_takeWhile_imp member
  | case2 => exact .inl rfl
  | case3 => exact .inl rfl

theorem word_of_cutNumber? {cs : List Char} {cut : Cut} (found : cutNumber? cs = some cut) :
    Word cut.kind cut.text := by
  revert found
  fun_cases cutNumber? cs with
  | case1 d rest digit number =>
    rintro ⟨⟩
    exact .number (numeric_cutUnsigned ['-'] digit (.inr rfl))
  | case2 => simp
  | case3 d rest _ digit number =>
    rintro ⟨⟩
    exact .number (numeric_cutUnsigned [] digit (.inl rfl))
  | case4 => simp
  | case5 => simp

theorem word_wordKind {text : List Char} (name : IsName text) : Word (wordKind text) text := by
  unfold wordKind
  split
  · next keyword found =>
    have same : keyword.word = String.ofList text := by simpa using List.find?_some found
    have word : Word (.keyword keyword) keyword.word.toList := .fixed rfl
    rwa [same, String.toList_ofList] at word
  · exact .identifier name

theorem word_of_cutWord? {cs : List Char} {cut : Cut} (found : cutWord? cs = some cut) :
    Word cut.kind cut.text := by
  revert found
  fun_cases cutWord? cs with
  | case1 => simp
  | case2 c rest start text =>
    rintro ⟨⟩
    exact word_wordKind ⟨start, fun d member => List.mem_takeWhile_imp member⟩
  | case3 => simp

theorem word_of_mem_operatorKinds {kind : TokenKind} (member : kind ∈ operatorKinds) :
    Word kind (operatorText kind) := by
  have fixed : ∀ kind ∈ operatorKinds, kind.spelling?.isSome = true := by decide
  obtain ⟨spelling, found⟩ := Option.isSome_iff_exists.1 (fixed kind member)
  simpa [operatorText, found] using Word.fixed found

theorem word_of_cutOperator? {cs : List Char} {cut : Cut} (found : cutOperator? cs = some cut) :
    Word cut.kind cut.text := by
  obtain ⟨kind, member, fits⟩ := List.exists_of_findSome?_eq_some found
  obtain ⟨rest, -, rfl⟩ := Option.map_eq_some_iff.1 fits
  exact word_of_mem_operatorKinds member

theorem word_of_cutColor? {cs : List Char} {cut : Cut} (found : cutColor? cs = some cut) :
    Word cut.kind cut.text := by
  revert found
  fun_cases cutColor? cs with
  | case1 rest digits shape =>
    rintro ⟨⟩
    exact .color shape.1 (List.all_eq_true.1 shape.2)
  | case2 => simp
  | case3 => simp

theorem word_of_cutMark? {cs : List Char} {cut : Cut} (found : cutMark? cs = some cut) :
    Word cut.kind cut.text := by
  cases cs with
  | nil => simp [cutMark?] at found
  | cons c rest =>
    obtain ⟨mark, shown, rfl⟩ := Option.map_eq_some_iff.1 found
    have same : mark.char = c := by simpa using List.find?_some shown
    have word : Word (.mark mark) (String.singleton mark.char).toList := .fixed rfl
    rwa [same, String.toList_singleton] at word

theorem eq_of_cutLetterOperator? {cs : List Char} {cut : Cut}
    (found : cutLetterOperator? cs = some cut) : ∃ rest, cs = 'o' :: '-' :: '-' :: rest ∧
      cut = ⟨.relation .aggregationReversed, ['o', '-', '-'], rest⟩ := by
  revert found
  fun_cases cutLetterOperator? cs with
  | case1 rest =>
    rintro ⟨⟩
    exact ⟨rest, rfl, rfl⟩
  | case2 => simp

theorem word_of_cutLexeme? {cs : List Char} {cut : Cut} (found : cutLexeme? cs = some cut) :
    Word cut.kind cut.text := by
  simp only [cutLexeme?, Option.or_eq_some_iff] at found
  rcases found with found | ⟨_, found | ⟨_, found | ⟨_, found | ⟨_, found | ⟨_, found⟩⟩⟩⟩⟩
  · exact word_of_cutNumber? found
  · obtain ⟨rest, -, rfl⟩ := eq_of_cutLetterOperator? found
    have member : TokenKind.relation .aggregationReversed ∈ operatorKinds := by decide
    exact word_of_mem_operatorKinds member
  · exact word_of_cutWord? found
  · exact word_of_cutOperator? found
  · exact word_of_cutColor? found
  · exact word_of_cutMark? found

/-- A cut takes up a word: it is no shorter, and where it is as long, its kind wins. -/
structure Cut.Covers (cut : Cut) (kind : TokenKind) (text : List Char) : Prop where
  length_le : text.length ≤ cut.text.length
  wins : cut.text = text → Wins cut.kind kind

theorem length_le_cutUnsigned {whole fraction : List Char} (digits : IsDigits whole)
    (pointed : fraction = [] ∨ ∃ places, IsDigits places ∧ fraction = '.' :: places)
    (rest : List Char) :
    (whole ++ fraction).length ≤ (cutUnsigned (whole ++ fraction ++ rest)).1.length := by
  rw [cutUnsigned, List.append_assoc, List.takeWhile_append_of_pos digits.2,
    List.dropWhile_append_of_pos digits.2]
  rcases pointed with rfl | ⟨places, behind, rfl⟩
  · simp only [List.length_append, List.length_nil]
    omega
  · obtain ⟨e, more, rfl⟩ := List.exists_cons_of_ne_nil behind.1
    have point : isDigit '.' = false := by decide
    have first : isDigit e = true := behind.2 e List.mem_cons_self
    have others : ∀ c ∈ more, isDigit c = true := fun c member => behind.2 c (.tail _ member)
    simp only [List.cons_append, List.takeWhile_cons, List.dropWhile_cons, point, cutFraction, first,
      Bool.false_eq_true, if_false, if_true, List.takeWhile_append_of_pos others,
      List.length_append, List.length_cons]
    omega

theorem cutNumber?_signed {sign : List Char} {d : Char} (signed : sign = [] ∨ sign = ['-'])
    (digit : isDigit d = true) (cs : List Char) : cutNumber? (sign ++ d :: cs) =
      some ⟨.number, sign ++ (cutUnsigned (d :: cs)).1, (cutUnsigned (d :: cs)).2⟩ := by
  rcases signed with rfl | rfl
  · have plus : d ≠ '-' := by
      rintro rfl
      exact absurd digit (by decide)
    change cutNumber? (d :: cs) = _
    unfold cutNumber?
    split
    · next minus => exact absurd (List.cons.inj minus).1 plus
    · next other =>
      obtain ⟨rfl, rfl⟩ := List.cons.inj other
      simp [digit]
    · next empty => simp at empty
  · simp [cutNumber?, digit]

theorem covers_of_numeric {text : List Char} (numeric : Numeric text) (rest : List Char) :
    ∃ cut, cutLexeme? (text ++ rest) = some cut ∧ cut.Covers .number text := by
  -- Numbers come first, so nothing can be taken for a longer word.
  obtain @⟨sign, whole, fraction, signed, digits, pointed⟩ := numeric
  have length := length_le_cutUnsigned digits pointed rest
  obtain ⟨d, more, rfl⟩ := List.exists_cons_of_ne_nil digits.1
  have found := cutNumber?_signed signed (digits.2 d List.mem_cons_self) (more ++ (fraction ++ rest))
  simp only [cutLexeme?, List.append_assoc, List.cons_append, found, Option.some_or]
  refine ⟨_, rfl, ?_, fun _ => .same _⟩
  simp only [List.cons_append, List.length_append, List.length_cons, List.append_assoc] at length ⊢
  omega

theorem cutNumber?_eq_none {c : Char} {cs : List Char} (start : isIdentifierStart c = true) :
    cutNumber? (c :: cs) = none := by
  unfold cutNumber?
  split
  · next minus => simp [(List.cons.inj minus).1, isIdentifierStart] at start
  · next other =>
    obtain ⟨rfl, rfl⟩ := List.cons.inj other
    simp [isDigit_eq_false_of_start start]
  · rfl

theorem covers_of_name {kind : TokenKind} {text : List Char} (name : IsName text)
    (wins : Wins (wordKind text) kind) (rest : List Char) :
    ∃ cut, cutLexeme? (text ++ rest) = some cut ∧ cut.Covers kind text := by
  -- A name is covered by a longer name, or by the operator that begins with a letter.
  cases text with
  | nil => exact name.elim
  | cons c more =>
    obtain ⟨start, parts⟩ := name
    rw [List.cons_append, cutLexeme?, cutNumber?_eq_none start, Option.none_or]
    cases letter : cutLetterOperator? (c :: (more ++ rest)) with
    | some cut =>
      obtain ⟨behind, same, rfl⟩ := eq_of_cutLetterOperator? letter
      obtain ⟨-, same⟩ := List.cons.inj same
      -- The name ends before the dashes, which are no part of it.
      obtain rfl : more = [] := by
        cases more with
        | nil => rfl
        | cons d more =>
          obtain ⟨rfl, -⟩ := List.cons.inj same
          exact absurd (parts '-' List.mem_cons_self) (by decide)
      exact ⟨_, rfl, by simp, by simp⟩
    | none =>
      simp only [cutWord?, start, if_true, Option.none_or, Option.some_or,
        List.takeWhile_append_of_pos parts]
      refine ⟨_, rfl, by simp, fun same => ?_⟩
      dsimp only at same ⊢
      rwa [same]

theorem wordKind_word (keyword : Keyword) : wordKind keyword.word.toList = .keyword keyword := by
  rw [wordKind, String.ofList_toList]
  cases keyword with
  | entity kind => cases kind <;> rfl
  | modifier word => cases word <;> rfl
  | builtin type => cases type <;> rfl
  | _ => rfl

theorem wins_wordKind (text : List Char) : Wins (wordKind text) .identifier := by
  unfold wordKind
  split
  · exact .keyword _
  · exact .same _

theorem operatorKinds_ordered : operatorKinds.Pairwise fun kind later =>
    ¬ operatorText kind <+: operatorText later := by
  decide

/-- In a table with this order the first operator that fits a text is the longest. -/
theorem covers_of_findSome? {kinds : List TokenKind} {kind : TokenKind} {cs : List Char}
    (ordered : kinds.Pairwise fun kind later => ¬ operatorText kind <+: operatorText later)
    (member : kind ∈ kinds) (fits : operatorText kind <+: cs) :
    ∃ cut, (kinds.findSome? fun kind => (dropFront? (operatorText kind) cs).map fun rest =>
      (⟨kind, operatorText kind, rest⟩ : Cut)) = some cut ∧
      cut.Covers kind (operatorText kind) := by
  induction kinds with
  | nil => simp at member
  | cons first kinds ih =>
    obtain ⟨before, ordered⟩ := List.pairwise_cons.1 ordered
    rw [List.findSome?_cons]
    cases found : dropFront? (operatorText first) cs with
    | some rest =>
      refine ⟨_, rfl, ?_⟩
      rcases List.mem_cons.1 member with rfl | member
      · exact ⟨le_rfl, fun _ => .same _⟩
      · have shorter := before kind member
        have front : operatorText first <+: cs := ⟨rest, (dropFront?_eq_some_iff.1 found).symm⟩
        -- Of two beginnings of one text one begins the other; that the earlier one does is ruled out.
        rcases List.prefix_or_prefix_of_prefix fits front with part | part
        · refine ⟨part.length_le, fun same => absurd ?_ shorter⟩
          dsimp only at same
          rw [same]
        · exact absurd part shorter
    | none =>
      rcases List.mem_cons.1 member with rfl | member
      · obtain ⟨rest, rfl⟩ := fits
        simp [dropFront?_eq_some_iff.2 rfl] at found
      · exact ih ordered member

theorem covers_of_operator {kind : TokenKind} (member : kind ∈ operatorKinds) (rest : List Char) :
    ∃ cut, cutLexeme? (operatorText kind ++ rest) = some cut ∧
      cut.Covers kind (operatorText kind) := by
  -- No number or name begins as an operator does, but for the operator that begins with a letter.
  have number : cutNumber? (operatorText kind ++ rest) = none := by
    fin_cases member <;> rfl
  rw [cutLexeme?, number, Option.none_or]
  by_cases letter : kind = .relation .aggregationReversed
  · subst letter
    exact ⟨_, rfl, le_rfl, fun _ => .same _⟩
  · have letterOperator : cutLetterOperator? (operatorText kind ++ rest) = none := by
      fin_cases member <;> first | rfl | simp at letter
    have word : cutWord? (operatorText kind ++ rest) = none := by
      fin_cases member <;> first | rfl | simp at letter
    obtain ⟨cut, found, covers⟩ := covers_of_findSome? operatorKinds_ordered member
      (List.prefix_append _ rest)
    exact ⟨cut, by rw [letterOperator, word]; exact congrArg (Option.or · _) found, covers⟩

theorem covers_of_color {digits : List Char} (six : digits.length = 6)
    (color : ∀ d ∈ digits, isColorDigit d = true) (rest : List Char) :
    ∃ cut, cutLexeme? ('#' :: digits ++ rest) = some cut ∧ cut.Covers .color ('#' :: digits) := by
  have operator : cutOperator? ('#' :: (digits ++ rest)) = none := rfl
  have found : cutColor? ('#' :: (digits ++ rest)) = some ⟨.color, '#' :: digits, rest⟩ := by
    simpa [cutColor?, ← six] using color
  refine ⟨⟨.color, '#' :: digits, rest⟩, ?_, le_rfl, fun _ => .same _⟩
  rw [List.cons_append, cutLexeme?, operator, found]
  rfl

theorem kind_of_word_mark {kind : TokenKind} {mark : Mark} (word : Word kind [mark.char]) :
    kind = .mark mark := by
  -- A mark is a word of one kind: other words are longer or begin with another character.
  have noStart : isIdentifierStart mark.char = false := by cases mark <;> decide
  have noDigit : isDigit mark.char = false := by cases mark <;> decide
  generalize same : [mark.char] = text at word
  cases word with
  | @fixed _ spelling fixed =>
    rcases spelling?_cases fixed with ⟨keyword, rfl, rfl⟩ | ⟨operator, text⟩ | ⟨other, rfl, text⟩
    · have name := isName_word keyword
      simp [← same, IsName, noStart] at name
    · have long : ∀ kind ∈ operatorKinds, 1 < (operatorText kind).length := by decide
      simpa [← text, ← same] using long kind operator
    · have char : mark.char = other.char := (List.cons.inj (same.trans text)).1
      have read := ofChar?_char other
      rw [← char, ofChar?_char] at read
      rw [Option.some.inj read]
  | identifier name => simp [← same, IsName, noStart] at name
  | number numeric =>
    obtain @⟨sign, whole, fraction, -, digits, -⟩ := numeric
    obtain ⟨d, more, rfl⟩ := List.exists_cons_of_ne_nil digits.1
    have member : d ∈ [mark.char] := by simp [same]
    have digit := digits.2 d List.mem_cons_self
    simp [List.mem_singleton.1 member, noDigit] at digit
  | color six =>
    have length := congrArg List.length same
    simp [six] at length

theorem covers_of_mark (mark : Mark) (rest : List Char) :
    ∃ cut, cutLexeme? (mark.char :: rest) = some cut ∧ cut.Covers (.mark mark) [mark.char] := by
  have last : cutMark? (mark.char :: rest) = some ⟨.mark mark, [mark.char], rest⟩ := by
    simp [cutMark?, ofChar?_char]
  have some_ : (cutLexeme? (mark.char :: rest)).isSome = true := by
    simp [cutLexeme?, last]
  obtain ⟨cut, found⟩ := Option.isSome_iff_exists.1 some_
  refine ⟨cut, found, List.length_pos_iff.2 (splits_of_cutLexeme? found).1, fun same => ?_⟩
  have word := word_of_cutLexeme? found
  rw [same] at word
  rw [kind_of_word_mark word]
  exact .same _

/-- The cut that the lexer makes covers every word at the front of a text. -/
theorem Word.covers {kind : TokenKind} {text : List Char} (word : Word kind text)
    (rest : List Char) : ∃ cut, cutLexeme? (text ++ rest) = some cut ∧ cut.Covers kind text := by
  cases word with
  | @fixed _ spelling fixed =>
    rcases spelling?_cases fixed with ⟨keyword, rfl, rfl⟩ | ⟨operator, same⟩ | ⟨mark, rfl, same⟩
    · refine covers_of_name (isName_word keyword) ?_ rest
      rw [wordKind_word]
      exact .same _
    · rw [same]
      exact covers_of_operator operator rest
    · rw [same]
      exact covers_of_mark mark rest
  | identifier name => exact covers_of_name name (wins_wordKind text) rest
  | number numeric => exact covers_of_numeric numeric rest
  | color six digits => exact covers_of_color six digits rest

end ArchDiagram.Lexer
