import ArchDiagram.SyntaxError

/-!
Splitting a source into pieces. Every character belongs to exactly one piece: a blank, a comment,
a token, or a character that begins none of these (`source_pieces`). A piece knows the characters
that it was cut from, so the place of each one is found by counting the characters before it, and
tokens and errors are two views of one list of pieces.
-/

namespace ArchDiagram.Lexer

def isBlank (c : Char) : Bool := c = ' ' || c = '\t' || c = '\r' || c = '\n'

def isDigit (c : Char) : Bool := '0' ≤ c && c ≤ '9'

def isIdentifierStart (c : Char) : Bool :=
  c = '_' || ('a' ≤ c && c ≤ 'z') || ('A' ≤ c && c ≤ 'Z')

def isIdentifierPart (c : Char) : Bool := isIdentifierStart c || isDigit c

def isColorDigit (c : Char) : Bool :=
  isDigit c || ('a' ≤ c && c ≤ 'f') || ('A' ≤ c && c ≤ 'F')

/-- A part of a source that is read at once. A comment or string that is
not closed runs to the end of the source. -/
inductive Piece
  | blank (c : Char)
  | lineComment (text : List Char)
  | blockComment (text : List Char) (closed : Bool)
  | stray (c : Char)
  | word (kind : TokenKind) (text : List Char)
  | string (raw content : List Char) (closed : Bool)
deriving DecidableEq, Repr

namespace Piece

def source : Piece → List Char
  | blank c | stray c => [c]
  | lineComment text | blockComment text _ | word _ text => text
  | string raw _ _ => raw

def lexeme? : Piece → Option Lexeme
  | word kind text => some ⟨kind, String.ofList text⟩
  | string _ content _ => some ⟨.string, String.ofList content⟩
  | blank _ | lineComment _ | blockComment _ _ | stray _ => none

def fault? : Piece → Option SyntaxError.Cause
  | stray c => some (.unexpectedCharacter c)
  | blockComment _ false => some .unterminatedComment
  | string _ _ false => some .unterminatedString
  | blank _ | lineComment _ | blockComment _ true | word _ _ | string _ _ true => none

end Piece

/-- The inside of a block comment up to and with its end mark, whether the mark was found, and
the characters behind it. -/
def cutBlockComment : List Char → List Char × Bool × List Char
  | [] => ([], false, [])
  | '*' :: '/' :: rest => (['*', '/'], true, rest)
  | c :: rest =>
    let (text, closed, after) := cutBlockComment rest
    (c :: text, closed, after)

def escaped (c : Char) : Char :=
  if c = 'n' then '\n' else if c = 't' then '\t' else c

/-- The inside of a string up to and with its closing quote. A backslash at the end of the source
is dropped from the content. -/
structure StringCut where
  raw : List Char
  content : List Char
  closed : Bool
  rest : List Char

def cutString : List Char → StringCut
  | [] => ⟨[], [], false, []⟩
  | '"' :: rest => ⟨['"'], [], true, rest⟩
  | '\\' :: [] => ⟨['\\'], [], false, []⟩
  | '\\' :: c :: rest =>
    let cut := cutString rest
    { cut with raw := '\\' :: c :: cut.raw, content := escaped c :: cut.content }
  | c :: rest =>
    let cut := cutString rest
    { cut with raw := c :: cut.raw, content := c :: cut.content }

/-- A point and the digits behind it. A point without a digit behind it is no fraction. -/
def cutFraction : List Char → List Char × List Char
  | '.' :: d :: rest =>
    if isDigit d then ('.' :: d :: rest.takeWhile isDigit, rest.dropWhile isDigit)
    else ([], '.' :: d :: rest)
  | cs => ([], cs)

def cutUnsigned (cs : List Char) : List Char × List Char :=
  let fraction := cutFraction (cs.dropWhile isDigit)
  (cs.takeWhile isDigit ++ fraction.1, fraction.2)

structure Cut where
  kind : TokenKind
  text : List Char
  rest : List Char

def cutNumber? : List Char → Option Cut
  | '-' :: d :: rest =>
    if isDigit d then
      let number := cutUnsigned (d :: rest)
      some ⟨.number, '-' :: number.1, number.2⟩
    else none
  | d :: rest =>
    if isDigit d then
      let number := cutUnsigned (d :: rest)
      some ⟨.number, number.1, number.2⟩
    else none
  | [] => none

def wordKind (text : List Char) : TokenKind :=
  match Keyword.ofWord? (String.ofList text) with
  | some keyword => .keyword keyword
  | none => .identifier

def cutWord? : List Char → Option Cut
  | [] => none
  | c :: rest =>
    if isIdentifierStart c then
      let text := c :: rest.takeWhile isIdentifierPart
      some ⟨wordKind text, text, rest.dropWhile isIdentifierPart⟩
    else none

/-- The kinds of more than one character that are no words, a longer one before its beginnings. -/
def operatorKinds : List TokenKind :=
  RelationOperator.all.map .relation ++ [.stereotypeOpen, .dots]

def dropFront? : List Char → List Char → Option (List Char)
  | [], cs => some cs
  | _ :: _, [] => none
  | a :: front, c :: cs => if a = c then dropFront? front cs else none

theorem dropFront?_eq_some_iff {front cs rest : List Char} :
    dropFront? front cs = some rest ↔ cs = front ++ rest := by
  fun_induction dropFront? front cs <;> simp_all [eq_comm]

def cutOperator? (cs : List Char) : Option Cut :=
  operatorKinds.findSome? fun kind =>
    let text := (kind.spelling?.getD "").toList
    (dropFront? text cs).map fun rest => ⟨kind, text, rest⟩

def cutColor? : List Char → Option Cut
  | '#' :: rest =>
    let digits := rest.take 6
    if digits.length = 6 ∧ digits.all isColorDigit then some ⟨.color, '#' :: digits, rest.drop 6⟩
    else none
  | _ => none

def cutMark? : List Char → Option Cut
  | [] => none
  | c :: rest => (Mark.ofChar? c).map fun mark => ⟨.mark mark, [c], rest⟩

/-- The operator that begins with a letter stands before words, which it would otherwise be
taken for. -/
def cutLetterOperator? : List Char → Option Cut
  | 'o' :: '-' :: '-' :: rest => some ⟨.relation .aggregationReversed, ['o', '-', '-'], rest⟩
  | _ => none

def cutLexeme? (cs : List Char) : Option Cut :=
  -- A minus sign with a digit behind it begins a number, where it could also begin an operator.
  (cutNumber? cs).or ((cutLetterOperator? cs).or ((cutWord? cs).or
    ((cutOperator? cs).or ((cutColor? cs).or (cutMark? cs)))))

def cutPiece : Char → List Char → Piece × List Char
  | '/', '/' :: rest =>
    (.lineComment ('/' :: '/' :: rest.takeWhile (· ≠ '\n')), rest.dropWhile (· ≠ '\n'))
  | '/', '*' :: rest =>
    let comment := cutBlockComment rest
    (.blockComment ('/' :: '*' :: comment.1) comment.2.1, comment.2.2)
  | '"', rest =>
    let cut := cutString rest
    (.string ('"' :: cut.raw) cut.content cut.closed, cut.rest)
  | c, rest =>
    if isBlank c then (.blank c, rest)
    else match cutLexeme? (c :: rest) with
      | some cut => (.word cut.kind cut.text, cut.rest)
      | none => (.stray c, rest)

-- Nothing is lost: what a cut takes and what it leaves make up the text that it was given.

theorem cutBlockComment_append (cs : List Char) :
    (cutBlockComment cs).1 ++ (cutBlockComment cs).2.2 = cs := by
  fun_induction cutBlockComment cs <;> simp_all

theorem cutString_append (cs : List Char) : (cutString cs).raw ++ (cutString cs).rest = cs := by
  fun_induction cutString cs <;> simp_all +zetaDelta

theorem cutFraction_append (cs : List Char) : (cutFraction cs).1 ++ (cutFraction cs).2 = cs := by
  fun_cases cutFraction cs <;> simp

theorem cutUnsigned_append (cs : List Char) : (cutUnsigned cs).1 ++ (cutUnsigned cs).2 = cs := by
  simp [cutUnsigned, cutFraction_append]

/-- A cut takes something, and loses nothing of the text. -/
def Cut.Splits (cut : Cut) (cs : List Char) : Prop := cut.text ≠ [] ∧ cut.text ++ cut.rest = cs

theorem cutUnsigned_ne_nil {d : Char} {cs : List Char} (digit : isDigit d = true) :
    (cutUnsigned (d :: cs)).1 ≠ [] := by
  simp [cutUnsigned, digit]

theorem splits_of_cutNumber? {cs : List Char} {cut : Cut} (found : cutNumber? cs = some cut) :
    cut.Splits cs := by
  revert found
  fun_cases cutNumber? cs with
  | case1 d rest digit number =>
    rintro ⟨⟩
    simp [Cut.Splits, number, cutUnsigned_append]
  | case2 => simp
  | case3 d rest _ digit number =>
    rintro ⟨⟩
    exact ⟨cutUnsigned_ne_nil digit, cutUnsigned_append _⟩
  | case4 => simp
  | case5 => simp

theorem splits_of_cutLetterOperator? {cs : List Char} {cut : Cut}
    (found : cutLetterOperator? cs = some cut) : cut.Splits cs := by
  revert found
  fun_cases cutLetterOperator? cs with
  | case1 rest => rintro ⟨⟩; simp [Cut.Splits]
  | case2 => simp

theorem splits_of_cutWord? {cs : List Char} {cut : Cut} (found : cutWord? cs = some cut) :
    cut.Splits cs := by
  revert found
  fun_cases cutWord? cs with
  | case1 => simp
  | case2 c rest start text => rintro ⟨⟩; simp [Cut.Splits, text]
  | case3 => simp

theorem operatorKinds_ne_nil :
    ∀ kind ∈ operatorKinds, (kind.spelling?.getD "").toList ≠ [] := by decide

theorem splits_of_cutOperator? {cs : List Char} {cut : Cut} (found : cutOperator? cs = some cut) :
    cut.Splits cs := by
  obtain ⟨kind, member, fits⟩ := List.exists_of_findSome?_eq_some found
  obtain ⟨rest, isPrefix, rfl⟩ := Option.map_eq_some_iff.1 fits
  exact ⟨operatorKinds_ne_nil kind member, (dropFront?_eq_some_iff.1 isPrefix).symm⟩

theorem splits_of_cutColor? {cs : List Char} {cut : Cut} (found : cutColor? cs = some cut) :
    cut.Splits cs := by
  revert found
  fun_cases cutColor? cs with
  | case1 rest digits _ => rintro ⟨⟩; simp [Cut.Splits, digits]
  | case2 => simp
  | case3 => simp

theorem splits_of_cutMark? {cs : List Char} {cut : Cut} (found : cutMark? cs = some cut) :
    cut.Splits cs := by
  cases cs with
  | nil => simp [cutMark?] at found
  | cons c rest =>
    obtain ⟨mark, _, rfl⟩ := Option.map_eq_some_iff.1 found
    simp [Cut.Splits]

theorem splits_of_cutLexeme? {cs : List Char} {cut : Cut} (found : cutLexeme? cs = some cut) :
    cut.Splits cs := by
  simp only [cutLexeme?, Option.or_eq_some_iff] at found
  rcases found with found | ⟨_, found | ⟨_, found | ⟨_, found | ⟨_, found | ⟨_, found⟩⟩⟩⟩⟩
  · exact splits_of_cutNumber? found
  · exact splits_of_cutLetterOperator? found
  · exact splits_of_cutWord? found
  · exact splits_of_cutOperator? found
  · exact splits_of_cutColor? found
  · exact splits_of_cutMark? found

theorem cutPiece_append (c : Char) (cs : List Char) :
    (cutPiece c cs).1.source ++ (cutPiece c cs).2 = c :: cs := by
  fun_cases cutPiece c cs with
  | case1 rest => simp [Piece.source]
  | case2 rest comment => simp [Piece.source, comment, cutBlockComment_append]
  | case3 rest cut => simp [Piece.source, cut, cutString_append]
  | case4 => simp [Piece.source]
  | case5 c rest _ _ _ _ cut found => exact (splits_of_cutLexeme? found).2
  | case6 => simp [Piece.source]

theorem cutPiece_source_ne_nil (c : Char) (cs : List Char) : (cutPiece c cs).1.source ≠ [] := by
  fun_cases cutPiece c cs with
  | case5 c rest _ _ _ _ cut found => exact (splits_of_cutLexeme? found).1
  | _ => simp [Piece.source]

theorem length_cutPiece_lt (c : Char) (cs : List Char) :
    (cutPiece c cs).2.length < (c :: cs).length := by
  have whole := congrArg List.length (cutPiece_append c cs)
  have taken := List.length_pos_iff.2 (cutPiece_source_ne_nil c cs)
  rw [List.length_append] at whole
  omega

def pieces : List Char → List Piece
  | [] => []
  | c :: cs => (cutPiece c cs).1 :: pieces (cutPiece c cs).2
termination_by cs => cs.length
decreasing_by exact length_cutPiece_lt c cs

theorem source_pieces (cs : List Char) : (pieces cs).flatMap Piece.source = cs := by
  fun_induction pieces cs with
  | case1 => rfl
  | case2 c cs ih => rw [List.flatMap_cons, ih, cutPiece_append]

def place (position : Position) : List Piece → List (Position × Piece)
  | [] => []
  | piece :: rest => (position, piece) :: place (position.after piece.source) rest

def tokenAt? (placed : Position × Piece) : Option Token :=
  placed.2.lexeme?.map fun lexeme =>
    ⟨lexeme, placed.1, (placed.1.after placed.2.source).offset⟩

def errorAt? (placed : Position × Piece) : Option SyntaxError :=
  placed.2.fault?.map fun cause => ⟨cause, placed.1⟩

def endToken (cs : List Char) : Token :=
  let position := Position.start.after cs
  ⟨⟨.endOfInput, ""⟩, position, position.offset⟩

structure Lexed where
  tokens : List Token
  errors : List SyntaxError
deriving DecidableEq, Repr

/-- Splits a source into tokens. Characters that begin no token are reported and left out. -/
def lex (source : String) : Lexed :=
  let placed := place .start (pieces source.toList)
  ⟨placed.filterMap tokenAt? ++ [endToken source.toList], placed.filterMap errorAt?⟩

end ArchDiagram.Lexer
