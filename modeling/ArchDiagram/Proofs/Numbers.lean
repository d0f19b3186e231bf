import ArchDiagram.Syntax.Parser
import Mathlib.Data.List.Infix
import Mathlib.Data.List.TakeWhile
import Mathlib.Data.Nat.Digits.Defs

/-!
The numbers that the lexer cuts have the value that their digits spell. The only numbers without one
are integers of too many digits.
-/

namespace ArchDiagram.Syntax

open Lexer (isDigit)

def IsDigits (cs : List Char) : Prop := cs ≠ [] ∧ ∀ c ∈ cs, isDigit c = true

/-- An optional minus sign, digits, and a point with digits behind it if there is one. -/
inductive Numeric : List Char → Prop
  | mk {sign whole fraction : List Char} : sign = [] ∨ sign = ['-'] → IsDigits whole →
      fraction = [] ∨ (∃ digits, IsDigits digits ∧ fraction = '.' :: digits) →
      Numeric (sign ++ (whole ++ fraction))

/-- The natural number that digits spell. -/
def naturalOf (digits : List Char) : Nat :=
  Nat.ofDigits 10 (digits.map fun c => c.toNat - '0'.toNat).reverse

/-- The numeral that a text spells: behind a minus sign it is negative, and the places behind the
point are counted in its exponent. -/
inductive Spells : List Char → Decimal.Numeral → Prop
  | whole {sign digits : List Char} : sign = [] ∨ sign = ['-'] → IsDigits digits →
      Spells (sign ++ digits) ⟨sign = ['-'], naturalOf digits, 0⟩
  | pointed {sign whole places : List Char} : sign = [] ∨ sign = ['-'] → IsDigits whole →
      IsDigits places → Spells (sign ++ (whole ++ '.' :: places))
        ⟨sign = ['-'], naturalOf (whole ++ places), -places.length⟩

theorem Numeric.spells {cs : List Char} (numeric : Numeric cs) : ∃ numeral, Spells cs numeral := by
  obtain ⟨signed, digits, rfl | ⟨places, behind, rfl⟩⟩ := numeric
  · rw [List.append_nil]
    exact ⟨_, .whole signed digits⟩
  · exact ⟨_, .pointed signed digits behind⟩

theorem Spells.numeric {cs : List Char} {numeral : Decimal.Numeral} (spells : Spells cs numeral) :
    Numeric cs := by
  cases spells with
  | @whole sign digits signed isDigits =>
    rw [← List.append_nil digits]
    exact .mk signed isDigits (.inl rfl)
  | pointed signed isDigits behind => exact .mk signed isDigits (.inr ⟨_, behind, rfl⟩)

/-- No run of digits is longer than an integer may be. -/
def ShortRuns (cs : List Char) : Prop :=
  ∀ run, run <:+: cs → (∀ c ∈ run, isDigit c = true) → run.length ≤ 4300

theorem ShortRuns.infix {cs ds : List Char} (short : ShortRuns ds) (part : cs <:+: ds) :
    ShortRuns cs := fun run inside => short run (inside.trans part)

theorem shortRuns_of_countP {cs : List Char} (few : cs.countP isDigit ≤ Decimal.digitLimit) :
    ShortRuns cs := by
  intro run inside digits
  calc run.length = run.countP isDigit := (List.countP_eq_length.2 digits).symm
    _ ≤ cs.countP isDigit := inside.sublist.countP_le
    _ ≤ Decimal.digitLimit := few

theorem isDigit_iff {c : Char} : isDigit c = true ↔ '0' ≤ c ∧ c ≤ '9' := by
  simp [isDigit]

theorem digit?_eq {c : Char} (digit : isDigit c = true) :
    Decimal.digit? c = some (c.toNat - '0'.toNat) := if_pos (isDigit_iff.1 digit)

def Plain (c : Char) : Prop := isDigit c = true ∨ c = '-' ∨ c = '.'

theorem Plain.bounds {c : Char} (plain : Plain c) : 45 ≤ c.toNat ∧ c.toNat ≤ 57 := by
  rcases plain with digit | rfl | rfl
  · obtain ⟨low, high⟩ := isDigit_iff.1 digit
    have low : 48 ≤ c.toNat := low
    exact ⟨by omega, high⟩
  · decide
  · decide

theorem plainForm_eq {c : Char} (plain : Plain c) : Text.plainForm c = c := by
  have high := plain.bounds.2
  rw [Text.plainForm, if_pos (by omega)]

theorem isBlank_eq_false {c : Char} (plain : Plain c) : Decimal.isBlank c = false := by
  have low := plain.bounds.1
  simp only [Decimal.isBlank, Bool.or_eq_false_iff, decide_eq_false_iff_not, Bool.and_eq_false_iff]
  refine ⟨?_, .inr fun high => ?_⟩
  · rintro rfl
    exact absurd low (by decide)
  · have high : c.toNat ≤ 13 := high
    omega

theorem ne_underscore {c : Char} (plain : Plain c) : c ≠ '_' := by
  rintro rfl
  exact absurd plain.bounds.2 (by decide)

theorem map_plainForm {cs : List Char} (plain : ∀ c ∈ cs, Plain c) : cs.map Text.plainForm = cs :=
  (List.map_congr_left fun c member => plainForm_eq (plain c member)).trans (List.map_id cs)

theorem dropWhile_isBlank {cs : List Char} (plain : ∀ c ∈ cs, Plain c) :
    cs.dropWhile Decimal.isBlank = cs := by
  cases cs with
  | nil => rfl
  | cons c cs => exact List.dropWhile_cons_of_neg (by simp [isBlank_eq_false (plain c (by simp))])

theorem trimBlanks_eq {cs : List Char} (plain : ∀ c ∈ cs, Plain c) :
    Decimal.trimBlanks cs = cs := by
  rw [Decimal.trimBlanks, dropWhile_isBlank plain, dropWhile_isBlank (by simpa using plain),
    List.reverse_reverse]

theorem dropUnderscores?_eq {cs : List Char} (plain : ∀ c ∈ cs, Plain c) :
    Decimal.dropUnderscores? cs = some cs := by
  fun_induction Decimal.dropUnderscores? cs with
  | case1 => rfl
  | case2 cs => exact absurd rfl (ne_underscore (plain '_' (by simp)))
  | case3 c d cs _ _ => exact absurd rfl (ne_underscore (plain '_' (by simp)))
  | case4 c d cs _ => exact absurd rfl (ne_underscore (plain '_' (by simp)))
  | case5 c cs _ _ ih =>
    rw [ih fun d member => plain d (List.mem_cons_of_mem _ member)]
    rfl

theorem naturalOf_cons (c : Char) (cs : List Char) :
    naturalOf (c :: cs) = naturalOf cs + 10 ^ cs.length * (c.toNat - '0'.toNat) := by
  rw [naturalOf, naturalOf, List.map_cons, Nat.ofDigits_reverse_cons, List.length_map]

theorem digitsFrom?_eq {cs : List Char} (digits : ∀ c ∈ cs, isDigit c = true) (value : Nat) :
    Decimal.digitsFrom? value cs = some (naturalOf cs + 10 ^ cs.length * value) := by
  induction cs generalizing value with
  | nil => simp [Decimal.digitsFrom?, naturalOf]
  | cons c cs ih =>
    rw [Decimal.digitsFrom?, digit?_eq (digits c (by simp)), Option.bind_some,
      ih fun d member => digits d (List.mem_cons_of_mem _ member), naturalOf_cons,
      List.length_cons, pow_succ]
    exact congrArg some (by ring)

theorem natural?_eq {cs : List Char} (digits : IsDigits cs) :
    Decimal.natural? cs = some (naturalOf cs) := by
  rw [Decimal.natural?, if_neg (by simpa using digits.1), digitsFrom?_eq digits.2, Nat.mul_zero,
    Nat.add_zero]

theorem Numeric.plain {cs : List Char} (numeric : Numeric cs) : ∀ c ∈ cs, Plain c := by
  obtain ⟨signed, whole, pointed⟩ := numeric
  intro c member
  rw [List.mem_append, List.mem_append] at member
  rcases member with member | member | member
  · rcases signed with rfl | rfl
    · simp at member
    · exact .inr (.inl (by simpa using member))
  · exact .inl (whole.2 c member)
  · rcases pointed with rfl | ⟨digits, fraction, rfl⟩
    · simp at member
    · rcases List.mem_cons.mp member with point | member
      · exact .inr (.inr point)
      · exact .inl (fraction.2 c member)

theorem cutSign_digits {sign unsigned : List Char} (signed : sign = [] ∨ sign = ['-'])
    (front : ∃ c cs, unsigned = c :: cs ∧ isDigit c = true) :
    Decimal.cutSign (sign ++ unsigned) = (decide (sign = ['-']), unsigned) := by
  obtain ⟨c, cs, rfl, digit⟩ := front
  rcases signed with rfl | rfl
  · change Decimal.cutSign (c :: cs) = (false, c :: cs)
    unfold Decimal.cutSign
    split
    · next minus => simp [(List.cons.inj minus).1, isDigit] at digit
    · next plus => simp [(List.cons.inj plus).1, isDigit] at digit
    · rfl
  · rfl

theorem front_of_digits {whole : List Char} (rest : List Char) (digits : IsDigits whole) :
    ∃ c cs, whole ++ rest = c :: cs ∧ isDigit c = true := by
  obtain ⟨c, cs, rfl⟩ := List.exists_cons_of_ne_nil digits.1
  exact ⟨c, cs ++ rest, rfl, digits.2 c (by simp)⟩

theorem readInteger_digits {sign whole : List Char} (signed : sign = [] ∨ sign = ['-'])
    (digits : IsDigits whole) : Decimal.readInteger (sign ++ whole) =
      if 4300 < whole.length then .error (.tooLong whole.length)
      else .ok (Decimal.signed (sign = ['-']) (naturalOf whole)) := by
  have plain : ∀ c ∈ sign ++ whole, Plain c := by
    simpa using (Numeric.mk signed digits (.inl rfl)).plain
  have inner (c : Char) (member : c ∈ whole) : Plain c := .inl (digits.2 c member)
  have front := front_of_digits [] digits
  rw [List.append_nil] at front
  have run : ∀ c ∈ whole, Decimal.isDigitOrUnderscore c = true := fun c member => by
    simp [Decimal.isDigitOrUnderscore, digit?_eq (digits.2 c member)]
  rw [Decimal.readInteger, map_plainForm plain, dropWhile_isBlank plain, cutSign_digits signed front]
  simp only [List.takeWhile_eq_self_iff.2 run, List.dropWhile_eq_nil_iff.2 run,
    dropUnderscores?_eq inner, natural?_eq digits]
  rfl

theorem Spells.numeral?_eq {cs : List Char} {numeral : Decimal.Numeral}
    (spells : Spells cs numeral) : Decimal.numeral? cs = some numeral := by
  have all {ds : List Char} (digits : IsDigits ds) :
      ∀ c ∈ ds, (Decimal.digit? c).isSome = true :=
    fun c member => by simp [digit?_eq (digits.2 c member)]
  cases spells with
  | @whole sign digits signed isDigits =>
    have front := front_of_digits [] isDigits
    rw [List.append_nil] at front
    rw [Decimal.numeral?, cutSign_digits signed front]
    simp only [List.append_nil, List.takeWhile_eq_self_iff.2 (all isDigits),
      List.dropWhile_eq_nil_iff.2 (all isDigits), natural?_eq isDigits]
    rfl
  | @pointed sign whole places signed isDigits behind =>
    have both : IsDigits (whole ++ places) :=
      ⟨by simp [isDigits.1], by simpa [or_imp, forall_and] using ⟨isDigits.2, behind.2⟩⟩
    have point : (Decimal.digit? '.').isSome = false := by decide
    rw [Decimal.numeral?, cutSign_digits signed (front_of_digits _ isDigits)]
    simp only [List.takeWhile_append_of_pos (all isDigits),
      List.dropWhile_append_of_pos (all isDigits), List.takeWhile_cons, List.dropWhile_cons, point,
      Bool.false_eq_true, if_false, List.append_nil, List.takeWhile_eq_self_iff.2 (all behind),
      List.dropWhile_eq_nil_iff.2 (all behind), natural?_eq both]
    simp [Decimal.power?]

/-- Neither infinity nor the missing number begins with a digit. -/
theorem ne_word_of_digit {c : Char} {cs : List Char} (digit : isDigit c = true) {word : String}
    (letter : word.toList.head? = some 'i' ∨ word.toList.head? = some 'n') :
    String.ofList ((c :: cs).map Char.toLower) ≠ word := by
  rintro rfl
  have high : c.toNat ≤ 57 := (isDigit_iff.1 digit).2
  have same : c.toLower = c := by
    refine dif_neg ?_
    rintro ⟨upper, -⟩
    have upper : 65 ≤ c.toNat := upper
    omega
  rw [String.toList_ofList, List.map_cons, same] at letter
  rcases letter with letter | letter <;> cases letter <;> exact absurd high (by decide)

theorem Spells.readNumber?_eq {cs : List Char} {numeral : Decimal.Numeral}
    (spells : Spells cs numeral) : Decimal.readNumber? cs = some (.ofNumeral numeral) := by
  have plain := spells.numeric.plain
  obtain ⟨negative, c, rest, cut, digit⟩ : ∃ negative c rest,
      Decimal.cutSign cs = (negative, c :: rest) ∧ isDigit c = true := by
    obtain @⟨_, _, fraction, signed, digits, -⟩ := spells.numeric
    have cut := cutSign_digits signed (front_of_digits fraction digits)
    obtain ⟨c, rest, unsigned, digit⟩ := front_of_digits fraction digits
    exact ⟨_, c, rest, cut.trans (by rw [unsigned]), digit⟩
  rw [Decimal.readNumber?, Decimal.plainNumber?, map_plainForm plain, trimBlanks_eq plain,
    dropUnderscores?_eq plain, Option.bind_some, cut]
  dsimp only
  rw [if_neg, if_neg (ne_word_of_digit digit (.inr (by decide))), spells.numeral?_eq]
  · rfl
  · rintro (infinite | infinite)
    · exact ne_word_of_digit digit (.inl (by decide)) infinite
    · exact ne_word_of_digit digit (.inl (by decide)) infinite

theorem Spells.decimalValue_eq {text : String} {numeral : Decimal.Numeral}
    (spells : Spells text.toList numeral) : decimalValue text = .ok (.ofNumeral numeral) := by
  rw [decimalValue, spells.readNumber?_eq]

theorem numberValue_ok {text : String} (numeric : Numeric text.toList)
    (short : ShortRuns text.toList) :
    (∃ value, numberValue text = .ok value) ∧ ∃ value, decimalValue text = .ok value := by
  have decimal : ∃ value, decimalValue text = .ok value :=
    numeric.spells.imp' _ fun _ spells => spells.decimalValue_eq
  refine ⟨?_, decimal⟩
  rw [numberValue]
  split_ifs with point
  · obtain ⟨value, found⟩ := decimal
    exact ⟨_, by rw [found]; rfl⟩
  -- Without a point it is an integer, the only number that is refused for its length.
  · generalize same : text.toList = cs at numeric short point
    obtain @⟨sign, whole, fraction, signed, digits, pointed⟩ := numeric
    have few : whole.length ≤ 4300 := short whole ⟨sign, fraction, by simp⟩ digits.2
    rcases pointed with rfl | ⟨places, -, rfl⟩
    · rw [List.append_nil] at same
      rw [integerValue, same, readInteger_digits signed digits, if_neg (Nat.not_lt.2 few)]
      exact ⟨_, rfl⟩
    · simp at point

end ArchDiagram.Syntax
