import ArchDiagram.Syntax.TypeText
import ArchDiagram.Proofs.TypeText.Names

/-!
The text of a type is cut into the lexemes of its parts. A name ends before a bracket, a comma or a
question mark, and no operator goes on behind an opening bracket as a name begins.
-/

namespace ArchDiagram

open Lexer (wordKind)

def nameLexeme (name : String) : Lexeme := ⟨wordKind name.toList, name⟩

def markLexeme (mark : Mark) : Lexeme := ⟨.mark mark, String.singleton mark.char⟩

mutual

def TypeExpr.lexemes : TypeExpr → List Lexeme
  | .simple name _ => [nameLexeme name]
  | .generic base args _ => nameLexeme base :: markLexeme .less ::
      ([markLexeme .comma].intercalate (TypeExpr.allLexemes args) ++ [markLexeme .greater])
  | .nullable inner _ => inner.lexemes ++ [markLexeme .question]

def TypeExpr.allLexemes : List TypeExpr → List (List Lexeme)
  | [] => []
  | type :: rest => type.lexemes :: TypeExpr.allLexemes rest

end

theorem TypeExpr.allLexemes_eq (types : List TypeExpr) :
    TypeExpr.allLexemes types = types.map (·.lexemes) := by
  induction types with
  | nil => rfl
  | cons type rest ih => rw [TypeExpr.allLexemes, ih, List.map_cons]

theorem TypeExpr.texts_eq (types : List TypeExpr) :
    TypeExpr.texts types = types.map (·.text) := by
  induction types with
  | nil => rfl
  | cons type rest ih => rw [TypeExpr.texts, ih, List.map_cons]

namespace Lexer

/-- A text does not go on as a name does, nor as the operator that begins with a letter. -/
def EndsName (rest : List Char) : Prop := ∀ c ∈ rest.head?, isIdentifierPart c = false ∧ c ≠ '-'

def BeginsName (text : List Char) : Prop :=
  ∃ c more, text = c :: more ∧ isIdentifierStart c = true

theorem IsName.begins {name : List Char} (isName : IsName name) : BeginsName name := by
  cases name with
  | nil => exact isName.elim
  | cons c more => exact ⟨c, more, rfl, isName.1⟩

theorem BeginsName.append {text : List Char} (begins : BeginsName text) (more : List Char) :
    BeginsName (text ++ more) := by
  obtain ⟨c, cs, rfl, start⟩ := begins
  exact ⟨c, cs ++ more, rfl, start⟩

theorem endsName_cons {c : Char} {rest : List Char} (other : isIdentifierPart c = false)
    (dash : c ≠ '-') : EndsName (c :: rest) := by
  rintro _ ⟨⟩
  exact ⟨other, dash⟩

theorem cutLexeme?_name {name rest : List Char} (isName : IsName name) (ends : EndsName rest) :
    cutLexeme? (name ++ rest) = some ⟨wordKind name, name, rest⟩ := by
  cases name with
  | nil => exact isName.elim
  | cons c more =>
    obtain ⟨start, parts⟩ := isName
    -- The operator that begins as a name does has a mark behind its letter, where a name ends.
    have letter : cutLetterOperator? (c :: (more ++ rest)) = none := by
      cases found : cutLetterOperator? (c :: (more ++ rest)) with
      | none => rfl
      | some cut =>
        obtain ⟨behind, same, -⟩ := eq_of_cutLetterOperator? found
        obtain ⟨-, same⟩ := List.cons.inj same
        cases more with
        | nil =>
          rw [List.nil_append] at same
          exact absurd rfl (ends '-' (same ▸ rfl)).2
        | cons d more =>
          obtain ⟨rfl, -⟩ := List.cons.inj same
          exact absurd (parts '-' List.mem_cons_self) (by decide)
    have stop : rest.takeWhile isIdentifierPart = [] ∧ rest.dropWhile isIdentifierPart = rest := by
      cases rest with
      | nil => exact ⟨rfl, rfl⟩
      | cons d rest => simp [(ends d rfl).1]
    rw [List.cons_append, cutLexeme?, cutNumber?_eq_none start, Option.none_or, letter,
      Option.none_or, cutWord?, if_pos start, Option.some_or, List.takeWhile_append_of_pos parts,
      List.dropWhile_append_of_pos parts, stop.1, stop.2, List.append_nil]

theorem Reads.word {kind : TokenKind} {text rest : List Char}
    (found : cutLexeme? (text ++ rest) = some ⟨kind, text, rest⟩) :
    Reads text rest [⟨kind, String.ofList text⟩] [] := by
  obtain ⟨c, cs, whole⟩ : ∃ c cs, text ++ rest = c :: cs :=
    List.exists_cons_of_ne_nil fun empty =>
      (splits_of_cutLexeme? found).1 (List.append_eq_nil_iff.1 empty).1
  rw [whole] at found
  exact .piece (cutPiece_word found)

theorem reads_name {name : String} {rest : List Char} (isName : IsName name.toList)
    (ends : EndsName rest) : Reads name.toList rest [nameLexeme name] [] := by
  have read := Reads.word (cutLexeme?_name isName ends)
  rwa [String.ofList_toList] at read

theorem reads_less {rest : List Char} (begins : BeginsName rest) :
    Reads ['<'] rest [markLexeme .less] [] := by
  obtain ⟨c, cs, rfl, start⟩ := begins
  have operator : cutOperator? ('<' :: c :: cs) = none := by
    -- An operator has a second character, and no name begins with it.
    have second : ∀ kind ∈ operatorKinds,
        ((operatorText kind)[1]?.any fun b => !isIdentifierStart b) = true := by decide
    refine List.findSome?_eq_none_iff.2 fun kind member => ?_
    obtain ⟨b, there, other⟩ := (Option.any_eq_true _ _).1 (second kind member)
    cases front : dropFront? (operatorText kind) ('<' :: c :: cs) with
    | none => exact congrArg (Option.map _) front
    | some rest =>
      have whole := dropFront?_eq_some_iff.1 front
      obtain ⟨inside, -⟩ := List.getElem?_eq_some_iff.1 there
      have same : some c = some b :=
        (congrArg (·[1]?) whole).trans ((List.getElem?_append_left inside).trans there)
      rw [← Option.some.inj same, start] at other
      cases other
  have found : cutLexeme? ('<' :: c :: cs) = some ⟨.mark .less, ['<'], c :: cs⟩ := by
    rw [cutLexeme?, operator]
    rfl
  exact .word found

theorem reads_greater (rest : List Char) : Reads ['>'] rest [markLexeme .greater] [] := .word rfl

theorem reads_question (rest : List Char) : Reads ['?'] rest [markLexeme .question] [] := .word rfl

theorem reads_comma (rest : List Char) : Reads [',', ' '] rest [markLexeme .comma] [] :=
  have comma : Reads [','] (' ' :: rest) [markLexeme .comma] [] := .word rfl
  comma.append (.piece (cutPiece_blank rfl rest))

theorem begins_text {budget : Nat} {type : TypeExpr} (within : type.Within IsTypeName budget) :
    BeginsName type.text.toList := by
  induction within with
  | simple holds => exact holds.1.begins
  | generic holds =>
    rw [TypeExpr.text, String.append_assoc, String.append_assoc, String.toList_append]
    exact holds.1.begins.append _
  | nullable _ _ ih =>
    rw [TypeExpr.text, String.toList_append]
    exact ih.append _

theorem begins_arguments {args : List TypeExpr} (some_ : args ≠ [])
    (begins : ∀ arg ∈ args, BeginsName arg.text.toList) :
    BeginsName ([',', ' '].intercalate (args.map (·.text.toList))) := by
  obtain ⟨first, args, rfl⟩ := List.exists_cons_of_ne_nil some_
  have front := begins first List.mem_cons_self
  cases args with
  | nil => simpa using front
  | cons second args =>
    rw [List.map_cons, List.map_cons, List.intercalate_cons_cons, List.append_assoc]
    exact front.append _

theorem reads_arguments {args : List TypeExpr} {rest : List Char} (some_ : args ≠ [])
    (each : ∀ arg ∈ args, ∀ rest, EndsName rest → Reads arg.text.toList rest arg.lexemes [])
    (ends : EndsName rest) :
    Reads ([',', ' '].intercalate (args.map (·.text.toList))) rest
      ([markLexeme .comma].intercalate (args.map (·.lexemes))) [] := by
  induction args with
  | nil => exact absurd rfl some_
  | cons first args ih =>
    cases args with
    | nil => simpa using each first List.mem_cons_self rest ends
    | cons second args =>
      have one (rest : List Char) := each first List.mem_cons_self (',' :: rest)
        (endsName_cons (by decide) (by decide))
      have more := ih (List.cons_ne_nil _ _) fun arg member => each arg (.tail _ member)
      simp only [List.map_cons, List.intercalate_cons_cons] at more ⊢
      exact ((one _).append (reads_comma _)).append more

theorem reads_type {budget : Nat} {type : TypeExpr} (within : type.Within IsTypeName budget)
    {rest : List Char} (ends : EndsName rest) : Reads type.text.toList rest type.lexemes [] := by
  induction within generalizing rest with
  | simple holds => exact reads_name holds.1 ends
  | @generic budget base args span holds some_ within ih =>
    have less (more : List Char) : EndsName ('<' :: more) := endsName_cons (by decide) (by decide)
    have closing : EndsName ('>' :: rest) := endsName_cons (by decide) (by decide)
    have inside := reads_arguments some_ (fun arg member _ => ih arg member) closing
    have begins := begins_arguments some_ fun arg member => begins_text (within arg member)
    have opening := reads_less (begins.append ('>' :: rest))
    have name (more : List Char) := reads_name holds.1 (less more)
    have whole := (((name _).append opening).append inside).append (reads_greater rest)
    simpa [TypeExpr.text, TypeExpr.lexemes, TypeExpr.texts_eq, TypeExpr.allLexemes_eq,
      Function.comp_def] using whole
  | nullable _ _ ih =>
    have closing : EndsName ('?' :: rest) := endsName_cons (by decide) (by decide)
    have both := (ih closing).append (reads_question rest)
    simpa [TypeExpr.text, TypeExpr.lexemes] using both

end Lexer

end ArchDiagram
