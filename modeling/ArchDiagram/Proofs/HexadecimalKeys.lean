import ArchDiagram.Yaml.Document
import Mathlib.Algebra.Group.Nat.Defs
import Mathlib.Data.List.TakeWhile

/-!
Documents with one key, an integer in hexadecimal digits behind a question mark, and no value for
it. There is no limit to the digits of such a key, as there is to the digits of a decimal one.
-/

namespace ArchDiagram.Yaml

open ArchDiagram.Text (codePoints chars chars_codePoints)
open ArchDiagram.Yaml.Lexer

def hexadecimalDigits : List Char := "0123456789abcdefABCDEF".toList

def Hexadecimal (digits : List Char) : Prop := ∀ c ∈ digits, c ∈ hexadecimalDigits

/-- What holds of each digit is found out by looking at all of them. -/
theorem Hexadecimal.forall {digits : List Char} (hexadecimal : Hexadecimal digits)
    {p : Char → Bool} (all : hexadecimalDigits.all p = true) : ∀ c ∈ digits, p c = true :=
  fun c inside => List.all_eq_true.1 all c (hexadecimal c inside)

def marked (digits : List Char) : List Char := '0' :: 'x' :: digits

def keyDocument (digits : List Char) : List Char := '?' :: ' ' :: (marked digits ++ ['\n'])

section Integers

variable {digits : List Char} (hexadecimal : Hexadecimal digits)

include hexadecimal

theorem readInBase?_hexadecimal :
    Decimal.readInBase? 16 digits = (Decimal.naturalInBase? 16 digits).map (↑·) := by
  -- None of the digits is of another script, blank, a sign or the letter of a base.
  have plain : digits.map Text.plainForm = digits := by
    have same := hexadecimal.forall (p := fun c => Text.plainForm c = c) (by decide)
    exact (List.map_congr_left fun c inside => of_decide_eq_true (same c inside)).trans
      (List.map_id' digits)
  have trimmed : Decimal.trimBlanks digits = digits := by
    have dark := hexadecimal.forall (p := fun c => !Decimal.isBlank c) (by decide)
    have kept {cs : List Char} (inside : ∀ c ∈ cs, c ∈ digits) :
        cs.dropWhile Decimal.isBlank = cs :=
      List.dropWhile_eq_self_iff.2 fun _ => by simpa using dark _ (inside _ (List.getElem_mem _))
    rw [Decimal.trimBlanks, kept fun _ => id, kept fun c => List.mem_reverse.1,
      List.reverse_reverse]
  have unsigned : Decimal.cutSign digits = (false, digits) := by
    have noSign := hexadecimal.forall (p := fun c => c ≠ '-' && c ≠ '+') (by decide)
    unfold Decimal.cutSign
    split
    · exact absurd (noSign '-' List.mem_cons_self) (by decide)
    · exact absurd (noSign '+' List.mem_cons_self) (by decide)
    · rfl
  have noMark : Decimal.dropBaseMark 16 digits = digits := by
    have noLetter := hexadecimal.forall (p := fun c => c.toLower ≠ 'x') (by decide)
    unfold Decimal.dropBaseMark
    split
    · exact if_neg (of_decide_eq_true (noLetter _ (by simp)))
    · rfl
  rw [Decimal.readInBase?, plain, trimmed, unsigned]
  dsimp only
  rw [noMark]
  rfl

theorem integerOf_hexadecimal {size : Nat}
    (spelled : Decimal.naturalInBase? 16 digits = some size) :
    integerOf (codePoints (marked digits)) = .ok (size : Int) := by
  have noLine : dropUnderscores (codePoints (marked digits)) = codePoints (marked digits) := by
    have others := hexadecimal.forall (p := fun c => c.toNat ≠ '_'.toNat) (by decide)
    refine List.filter_eq_self.2 fun code inside => ?_
    obtain ⟨c, member, rfl⟩ := List.mem_map.1 inside
    rcases List.mem_cons.1 member with rfl | behind
    · rfl
    · rcases List.mem_cons.1 behind with rfl | digit
      · rfl
      · exact others c digit
  have sized : integerSize (codePoints (marked digits)) = digitsValue 16 (codePoints digits) := by
    rw [integerSize, chars_codePoints]
    rfl
  have value : digitsValue 16 (codePoints digits) = .ok (size : Int) := by
    rw [digitsValue, chars_codePoints, readInBase?_hexadecimal hexadecimal, spelled]
    rfl
  have positive : startsNegative (codePoints (marked digits)) = false := rfl
  have unsigned : unsigned (codePoints (marked digits)) = codePoints (marked digits) := rfl
  rw [integerOf, noLine, positive, unsigned, sized, value]
  rfl

theorem ofPlain_hexadecimal (some_ : digits ≠ []) :
    Tag.ofPlain (codePoints (marked digits)) = .integer := by
  have noFeed : Text.dropLineFeed (marked digits) = marked digits := by
    refine if_neg fun last => ?_
    have inside : '\n' ∈ digits := by simpa [marked] using List.mem_of_getLast? last
    exact absurd (hexadecimal _ inside) (by decide)
  -- The other types are told by words, none of which begins with a zero.
  have none_ {words : List String}
      (others : words.all (fun word => word.toList.head? ≠ some '0') = true) :
      String.ofList (marked digits) ∉ words := by
    intro inside
    have other := List.all_eq_true.1 others _ inside
    rw [String.toList_ofList] at other
    cases other
  have isInteger : isInteger (marked digits) = true := by
    have all := hexadecimal.forall (p := isHexDigitOrLine) (by decide)
    have filled : digits.isEmpty = false := by simpa using some_
    change (!digits.isEmpty && digits.all isHexDigitOrLine) = true
    rw [filled, List.all_eq_true.2 all]
    rfl
  have noFloat : isFloat (marked digits) = false := by
    unfold isFloat
    rw [if_neg (none_ (by decide))]
    rfl
  have filled : (codePoints (marked digits)).isEmpty = false := rfl
  rw [Tag.ofPlain, chars_codePoints, noFeed, noFloat, isInteger, filled, if_neg nofun,
    if_neg (none_ (by decide)), if_neg nofun, if_pos rfl]

end Integers

theorem digitsInBase?_zeros (count value : Nat) :
    Decimal.digitsInBase? 16 value (List.replicate count '0') = some (16 ^ count * value) := by
  induction count generalizing value with
  | zero => rw [Nat.pow_zero, Nat.one_mul, List.replicate_zero, Decimal.digitsInBase?]
  | succ count ih =>
    have zero : Decimal.anyDigit? '0' = some 0 := rfl
    rw [List.replicate_succ, Decimal.digitsInBase?, zero, Option.bind_some, if_pos (by decide), ih,
      Nat.add_zero, Nat.pow_succ, Nat.mul_assoc]

theorem naturalInBase?_power (count : Nat) :
    Decimal.naturalInBase? 16 ('1' :: List.replicate count '0') = some (16 ^ count) := by
  have one : Decimal.anyDigit? '1' = some 1 := rfl
  rw [Decimal.naturalInBase?, if_neg nofun, Decimal.digitsInBase?, one, Option.bind_some,
    if_pos (by decide), digitsInBase?_zeros, Nat.mul_one]

/-- A character of a word: it ends no plain scalar and is one column wide. -/
def isWordChar (c : Char) : Bool := isAllowed c && !isBlankOrBreak c && c ≠ ':' && c ≠ '\ufeff'

theorem forward_succ (spot : Spot) (count : Nat) :
    spot.forward (count + 1) = spot.next.forward count := by
  induction count with
  | zero => rfl
  | succ count ih => exact congrArg Spot.next ih

section Words

variable {word : List Char} (isWord : ∀ c ∈ word, isWordChar c = true)

include isWord

theorem plainLength_word : plainLength false (word ++ ['\n']) = word.length := by
  induction word with
  | nil => rfl
  | cons c rest ih =>
    obtain ⟨isChar, others⟩ := List.forall_mem_cons.1 isWord
    have goesOn : endsPlain false c (rest ++ ['\n']) = false := by
      simp_all [isWordChar, endsPlain]
    rw [List.cons_append, plainLength, goesOn, if_neg nofun, ih others, List.length_cons]

theorem forward_word (rest : List Char) (index line column : Nat) :
    (Spot.mk (word ++ rest) index line column).forward word.length =
      ⟨rest, index + word.length, line, column + word.length⟩ := by
  induction word generalizing index column with
  | nil => rfl
  | cons c more ih =>
    obtain ⟨isChar, others⟩ := List.forall_mem_cons.1 isWord
    have step : (Spot.mk (c :: more ++ rest) index line column).next =
        ⟨more ++ rest, index + 1, line, column + 1⟩ := by
      simp_all [isWordChar, isBlankOrBreak, Spot.next]
    rw [List.length_cons, forward_succ, step, ih others, Nat.add_assoc, Nat.add_assoc,
      Nat.add_comm 1]

/-- A word at the end of the last line is a plain scalar. The line ends behind it. -/
theorem plainRest_word (some_ : word ≠ []) {spot : Spot} (ahead : spot.rest = word ++ ['\n'])
    (noComment : spot.isAt (· = '#') = false) (steps : Nat) {indent : Int} (inside : 0 < indent) :
    plainRest false indent (steps + 1) [] false spot =
      (word, ⟨[], spot.index + word.length + 1, spot.line + 1, 0⟩, true) := by
  obtain ⟨rest, index, line, column⟩ := spot
  subst ahead
  have long : word.length ≠ 0 := by simpa using some_
  have spaces (index column : Nat) : plainSpaces ⟨['\n'], index, line, column⟩ =
      ([' '], ⟨[], index + 1, line + 1, 0⟩, true) := rfl
  rw [plainRest]
  dsimp only
  rw [plainLength_word isWord, forward_word isWord, spaces, if_neg (by simp [noComment, long])]
  simp [inside]

end Words

theorem run_bind_of_ok {σ ε α β : Type} {x : StateT σ (Except ε) α} {f : α → StateT σ (Except ε) β}
    {before after : σ} {found : α} (ran : x.run before = .ok (found, after)) :
    (x >>= f).run before = (f found).run after := by
  rw [StateT.run_bind, ran]
  rfl

theorem tokenAt_zero {lexer : Lexer} (inside : lexer.spot.column ≠ 0) :
    (tokenAt '0').run lexer = plain.run lexer := by
  have begins : beginsPlain lexer.isInBlock '0' lexer.spot = true := rfl
  simp [tokenAt, inside, begins]

section Reading

variable (digits : List Char)

def behindSign : Lexer where
  spot := ⟨' ' :: (marked digits ++ ['\n']), 1, 0, 1⟩
  tokens := #[.blockMappingStart, .key]
  flowDepth := 0
  indent := 0
  outerIndents := [-1]
  allowsKey := true
  candidates := []

/-- How far a document is read behind its key. The key could have a colon behind it. -/
def behindKey : Lexer :=
  { behindSign digits with
    spot := ⟨[], 2 + (marked digits).length + 1, 1, 0⟩
    tokens := #[.blockMappingStart, .key, .scalar (codePoints (marked digits)) true]
    candidates := [(0, ⟨2, false, ⟨marked digits ++ ['\n'], 2, 0, 2⟩⟩)] }

theorem readToken_sign :
    readToken.run (.start (keyDocument digits)) = .ok (true, behindSign digits) := rfl

theorem readToken_end : ∃ last, readToken.run (behindKey digits) = .ok (false, last) ∧
    last.tokens = (behindKey digits).tokens.push .blockEnd := ⟨_, rfl, rfl⟩

variable {digits} (isWord : ∀ c ∈ marked digits, isWordChar c = true)

include isWord

theorem readToken_key : readToken.run (behindSign digits) = .ok (true, behindKey digits) := by
  let before : Lexer := { behindSign digits with spot := ⟨marked digits ++ ['\n'], 2, 0, 2⟩ }
  have skipped : (modify fun lexer => lexer.skipSpace (lexer.spot.rest.length + 1) :
      Lexing Unit).run (behindSign digits) = .ok ((), before) := rfl
  have fresh : dropStale.run before = .ok ((), before) := rfl
  have unwound : (modify fun lexer => unwind lexer.spot.column lexer : Lexing Unit).run before =
      .ok ((), before) := rfl
  have got : (get : Lexing Lexer).run before = .ok (before, before) := rfl
  -- The zero is no mark, so a plain scalar begins there, and a key may begin with it.
  have scalar : (tokenAt '0').run before = .ok ((), behindKey digits) := by
    let begun : Lexer :=
      { before with allowsKey := false, candidates := [(0, ⟨2, false, before.spot⟩)] }
    have beginning : beginNode.run before = .ok ((), begun) := rfl
    have inBlock : (!begun.isInBlock) = false := rfl
    have inside : (0 : Int) < 0 + 1 := by decide
    have read : plainRest false (begun.indent + 1) (begun.spot.rest.length + 1) [] false
        begun.spot = _ := plainRest_word isWord nofun rfl rfl begun.spot.rest.length inside
    rw [tokenAt_zero (Nat.succ_ne_zero 1), plain, run_bind_of_ok beginning, StateT.run_modify]
    dsimp only
    rw [inBlock, read]
    rfl
  rw [readToken, run_bind_of_ok skipped, run_bind_of_ok fresh, run_bind_of_ok unwound,
    run_bind_of_ok got]
  change (tokenAt '0' >>= _).run before = _
  rw [run_bind_of_ok scalar]
  rfl

theorem tokens_keyDocument : tokens (String.ofList (keyDocument digits)) =
    [.blockMappingStart, .key, .scalar (codePoints (marked digits)) true, .blockEnd] := by
  have allowed : (keyDocument digits).all isAllowed = true := by
    have word : (marked digits).all isAllowed = true :=
      List.all_eq_true.2 fun c inside => by
        have isChar := isWord c inside
        simp_all [isWordChar]
    rw [keyDocument, List.all_cons, List.all_cons, List.all_append, word]
    rfl
  have steps : (keyDocument digits).length + 1 = (digits.length + 3) + 1 + 1 + 1 := by
    simp [keyDocument, marked]
  obtain ⟨last, ended, same⟩ := readToken_end digits
  rw [tokens, String.toList_ofList, if_pos allowed, steps, readTokens, readToken_sign]
  dsimp only
  rw [readTokens, readToken_key isWord]
  dsimp only
  rw [readTokens, ended]
  dsimp only
  rw [same]
  rfl

end Reading

def keyGraph (codes : Text.CodePoints) (tag : Tag) : Graph :=
  ⟨#[⟨.mapping, .mapping [(1, 2)]⟩, ⟨tag, .scalar codes⟩, .empty]⟩

theorem ofTokens?_key (codes : Text.CodePoints) :
    Graph.ofTokens? [.blockMappingStart, .key, .scalar codes true, .blockEnd] =
      .ok (some 0, keyGraph codes (.ofPlain codes)) := rfl

namespace Evaluation

variable {codes : Text.CodePoints} {n : Int}

def keySpace (codes : Text.CodePoints) (worths : Array (Option Worth)) : Workspace :=
  ⟨keyGraph codes .integer, worths, []⟩

theorem keyOf_integer (spelled : integerOf codes = .ok n) :
    (keyOf 1).run (keySpace codes #[some (.mapping .empty), none, none]) =
      .ok (.integer n,
        keySpace codes #[some (.mapping .empty), some (.scalar (.integer n)), none]) := by
  let before := keySpace codes #[some (.mapping .empty), none, none]
  let after := keySpace codes #[some (.mapping .empty), some (.scalar (.integer n)), none]
  have unknown : (worth? 1).run before = .ok (none, before) := rfl
  have tag : (tagOf 1).run before = .ok (.integer, before) := rfl
  have scalar : (scalarOf 1 .integer).run before = .ok (.integer n, before) := by
    change (Scalar.integer <$> integerOf codes).map (·, before) = _
    rw [spelled]
    rfl
  have visited : (visit 1).run before = .ok ((), after) := by
    rw [visit, run_bind_of_ok unknown]
    change (tagOf 1 >>= _).run before = _
    rw [run_bind_of_ok tag]
    change (scalarOf 1 .integer >>= _).run before = _
    rw [run_bind_of_ok scalar]
    rfl
  rw [keyOf, run_bind_of_ok visited]
  rfl

theorem fill_integer (spelled : integerOf codes = .ok n) :
    (fill 0).run (keySpace codes #[some (.mapping .empty), none, none]) =
      .ok ((), keySpace codes #[some (.mapping (Mapping.empty.put (.integer n) 2)),
        some (.scalar (.integer n)), some (.scalar .null)]) := by
  let before := keySpace codes #[some (.mapping .empty), none, none]
  let after := keySpace codes #[some (.mapping .empty), some (.scalar (.integer n)),
    some (.scalar .null)]
  have tag : (tagOf 0).run before = .ok (.mapping, before) := rfl
  have content : (contentOf 0).run before = .ok (.mapping [(1, 2)], before) := rfl
  have got : (get : Evaluation Workspace).run before = .ok (before, before) := rfl
  -- The key is no sign for a merge, so the pairs of the mapping stay as they are.
  have flat : (flatten (mergeLimit before.graph) 0).run before = .ok ((), before) := by
    with_unfolding_all rfl
  have pairs : (pairsOf 0).run before = .ok ([(1, 2)], before) := rfl
  have entries : (entriesOf 0).run before = .ok (Mapping.empty.put (.integer n) 2, after) := by
    rw [entriesOf, run_bind_of_ok content]
    change ((get : Evaluation Workspace) >>= _).run before = _
    rw [run_bind_of_ok got, run_bind_of_ok flat, run_bind_of_ok pairs, List.foldlM_cons]
    change ((keyOf 1 >>= _) >>= _).run before = _
    rw [bind_assoc, run_bind_of_ok (keyOf_integer spelled)]
    rfl
  rw [fill, run_bind_of_ok tag]
  change (entriesOf 0 >>= _).run before = _
  rw [run_bind_of_ok entries]
  rfl

theorem all_integer (spelled : integerOf codes = .ok n) :
    (all 0).run (.ofGraph (keyGraph codes .integer)) =
      .ok ((), keySpace codes #[some (.mapping (Mapping.empty.put (.integer n) 2)),
        some (.scalar (.integer n)), some (.scalar .null)]) := by
  let space := keySpace codes #[some (.mapping .empty), none, none]
  let before : Workspace := { space with waiting := [0] }
  have visited : (visit 0).run (.ofGraph (keyGraph codes .integer)) = .ok ((), before) := rfl
  have got : (get : Evaluation Workspace).run before = .ok (before, before) := rfl
  have emptied : (modify fun space => { space with waiting := [] } : Evaluation Unit).run before =
      .ok ((), space) := rfl
  rw [all, run_bind_of_ok visited, run_bind_of_ok got]
  change (fillAll 4).run before = _
  rw [fillAll, run_bind_of_ok got, run_bind_of_ok emptied]
  change ((fill 0 >>= _) >>= _).run space = _
  rw [bind_assoc, run_bind_of_ok (fill_integer spelled)]
  rfl

end Evaluation

/-- The key is the integer that the digits spell, however many they are. -/
theorem load_keyDocument {digits : List Char} (hexadecimal : Hexadecimal digits) {size : Nat}
    (spelled : Decimal.naturalInBase? 16 digits = some size) :
    ∃ document value, Loader.standard.load (String.ofList (keyDocument digits)) = .ok document ∧
      Loader.standard.look document = .mapping (Mapping.empty.put (.integer size) value) := by
  have some_ : digits ≠ [] := by
    rintro rfl
    cases spelled
  have isWord : ∀ c ∈ marked digits, isWordChar c = true :=
    List.forall_mem_cons.2 ⟨rfl, List.forall_mem_cons.2 ⟨rfl, hexadecimal.forall (by decide)⟩⟩
  have evaluated := Evaluation.all_integer (integerOf_hexadecimal hexadecimal spelled)
  let document : Place := ⟨#[some (.mapping (Mapping.empty.put (.integer size) 2)),
    some (.scalar (.integer size)), some (.scalar .null)], some 0⟩
  refine ⟨document, document.part 2, ?_, rfl⟩
  change load (String.ofList (keyDocument digits)) = .ok document
  rw [load, tokens_keyDocument isWord, ofTokens?_key, ofPlain_hexadecimal hexadecimal some_]
  change ((Evaluation.all 0).run _ >>= _) = _
  rw [evaluated]
  rfl

end ArchDiagram.Yaml
