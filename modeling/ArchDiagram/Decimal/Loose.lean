import ArchDiagram.Text.Digit
import ArchDiagram.Decimal.Binary64

/-!
Numbers in the forms in which people write them: with blanks around them, with single underscores
between digits, and with the digits of any script. Integers of very many digits are refused.
-/

namespace ArchDiagram.Decimal

def isBlank (c : Char) : Bool := c = ' ' || ('\t' ≤ c && c ≤ '\r')

def trimBlanks (cs : List Char) : List Char :=
  ((cs.dropWhile isBlank).reverse.dropWhile isBlank).reverse

/-- A text without the single underscores between its digits; nothing if an underscore stands
anywhere else. -/
def dropUnderscores? : List Char → Option (List Char)
  | [] => some []
  | '_' :: _ => none
  | c :: '_' :: d :: rest =>
    if (digit? c).isSome ∧ (digit? d).isSome then (dropUnderscores? (d :: rest)).map (c :: ·)
    else none
  | c :: rest => (dropUnderscores? rest).map (c :: ·)

def plainNumber? (cs : List Char) : Option (List Char) :=
  dropUnderscores? (trimBlanks (cs.map Text.plainForm))

inductive IntegerFault
  | malformed
  | tooLong (digits : Nat)
deriving DecidableEq, Repr

def digitLimit : Nat := 4300

def tooLongMessage (digits? : Option Nat) : String :=
  "Exceeds the limit (" ++ toString digitLimit ++ " digits) for integer string conversion"
    ++ (match digits? with
      | some digits => ": value has " ++ toString digits ++ " digits"
      | none => "")
    ++ "; use sys.set_int_max_str_digits() to increase the limit"

/-- The wording for a text that is no integer in a base, given the text between quotation marks.
Only its beginning is shown. -/
def malformedIntegerMessage (base : Nat) (shown : String) : String :=
  "invalid literal for int() with base " ++ toString base ++ ": "
    ++ String.ofList (shown.toList.take 200)

def malformedNumberMessage (shown : String) : String :=
  "could not convert string to float: " ++ shown

def isDigitOrUnderscore (c : Char) : Bool := (digit? c).isSome || c = '_'

/-- The integer that a text spells. A run of too many digits is refused whatever stands behind
it. -/
def readInteger (cs : List Char) : Except IntegerFault Int :=
  let (negative, unsigned) := cutSign ((cs.map Text.plainForm).dropWhile isBlank)
  match dropUnderscores? (unsigned.takeWhile isDigitOrUnderscore) with
  | none => .error .malformed
  | some digits =>
    if digitLimit < digits.length then .error (.tooLong digits.length)
    else if !(unsigned.dropWhile isDigitOrUnderscore).all isBlank then .error .malformed
    else match natural? digits with
      | some size => .ok (signed negative size)
      | none => .error .malformed

def baseLetter (base : Nat) : Char := if base = 2 then 'b' else if base = 8 then 'o' else 'x'

def dropBaseMark (base : Nat) : List Char → List Char
  | '0' :: c :: rest => if c.toLower = baseLetter base then rest else '0' :: c :: rest
  | rest => rest

def readInBase? (base : Nat) (cs : List Char) : Option Int :=
  let (negative, unsigned) := cutSign (trimBlanks (cs.map Text.plainForm))
  (naturalInBase? base (dropBaseMark base unsigned)).map (signed negative)

def readNumber? (cs : List Char) : Option Binary64 :=
  (plainNumber? cs).bind fun plain =>
    let (negative, unsigned) := cutSign plain
    let word := String.ofList (unsigned.map Char.toLower)
    if word = "inf" ∨ word = "infinity" then some (.infinite negative)
    else if word = "nan" then some .notANumber
    else (numeral? plain).map .ofNumeral

end ArchDiagram.Decimal
