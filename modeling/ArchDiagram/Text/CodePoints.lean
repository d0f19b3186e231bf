import ArchDiagram.Text.Quoted

/-!
Texts as code points. A code point may be half of a surrogate pair, which is no character; a string
cannot hold it, but it can be spelled by an escape and be shown in a message.
-/

namespace ArchDiagram.Text

abbrev CodePoints := List Nat

def codePoints (cs : List Char) : CodePoints := cs.map Char.toNat

/-- The code points of a string. None of them is half of a pair. -/
def codes (text : String) : CodePoints := codePoints text.toList

def le (a b : CodePoints) : Bool := !b.lex a

/-- The character of a code point, unless it is half of a pair. -/
def char? (code : Nat) : Option Char :=
  if valid : code.isValidChar then some (Char.ofNatAux code valid) else none

/-- The string of code points, unless there are halves of pairs among them. -/
def string? (codes : CodePoints) : Option String := (codes.mapM char?).map String.ofList

/-- The characters by which a text is read as a number, a word or a time. None of these can hold the
replacement character, which stands for halves of pairs. -/
def chars (codes : CodePoints) : List Char := codes.map fun code => (char? code).getD '\ufffd'

def escapedHalf (code : Nat) : List Char := '\\' :: 'u' :: hexDigits 4 code

/-- Code points as a string in which halves of pairs are shown by their escapes. -/
def shown (codes : CodePoints) : String :=
  String.ofList (codes.flatMap fun code => (char? code).elim (escapedHalf code) ([·]))

def quotedCode (quote : Char) (code : Nat) : List Char :=
  (char? code).elim (escapedHalf code) (quotedChar quote)

def quotedCodes (codes : CodePoints) : String :=
  let quote := quoteFor (codes.filterMap char?)
  String.ofList (quote :: codes.flatMap (quotedCode quote) ++ [quote])

theorem le_iff (a b : CodePoints) : le a b = true ↔ ¬ b < a := by
  rw [le, Bool.not_eq_true', ← Bool.not_eq_true, List.lex_eq_true_iff_lt]

theorem char?_toNat (c : Char) : char? c.toNat = some c := dif_pos c.valid

theorem toNat_of_char? {code : Nat} {c : Char} (found : char? code = some c) : c.toNat = code := by
  unfold char? at found
  by_cases valid : code.isValidChar
  · rw [dif_pos valid] at found
    rw [← Option.some.inj found]
    rfl
  · rw [dif_neg valid] at found
    cases found

theorem codePoints_injective {cs ds : List Char} (same : codePoints cs = codePoints ds) :
    cs = ds :=
  List.map_inj_right (fun _ _ => Char.toNat_inj.1) |>.1 same

theorem codes_injective {s t : String} (same : codes s = codes t) : s = t :=
  String.toList_inj.1 (codePoints_injective same)

theorem mapM_char?_eq_some_iff {codes : CodePoints} {cs : List Char} :
    codes.mapM char? = some cs ↔ codePoints cs = codes := by
  constructor
  · intro found
    induction codes generalizing cs with
    | nil =>
      cases found
      rfl
    | cons code rest ih =>
      rw [List.mapM_cons] at found
      obtain ⟨c, own, found⟩ := Option.bind_eq_some_iff.1 found
      obtain ⟨more, others, same⟩ := Option.bind_eq_some_iff.1 found
      cases same
      rw [codePoints, List.map_cons, toNat_of_char? own, ← codePoints, ih others]
  · rintro rfl
    induction cs with
    | nil => rfl
    | cons c rest ih =>
      rw [codePoints, List.map_cons, List.mapM_cons, char?_toNat, ← codePoints, ih]
      rfl

theorem string?_eq_some_iff {own : CodePoints} {text : String} :
    string? own = some text ↔ codes text = own := by
  rw [string?, Option.map_eq_some_iff]
  constructor
  · rintro ⟨cs, found, rfl⟩
    rw [codes, String.toList_ofList]
    exact mapM_char?_eq_some_iff.1 found
  · rintro rfl
    exact ⟨text.toList, mapM_char?_eq_some_iff.2 rfl, String.ofList_toList⟩

theorem chars_codePoints (cs : List Char) : chars (codePoints cs) = cs := by
  simp [chars, codePoints, Function.comp_def, char?_toNat]

end ArchDiagram.Text
