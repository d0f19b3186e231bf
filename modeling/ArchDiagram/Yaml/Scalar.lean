import ArchDiagram.Text.Lower
import ArchDiagram.Yaml.Tag
import ArchDiagram.Yaml.Value

/-!
The values that scalars spell. A tag can ask for a type whatever the text is, so each type has its
own faults; messages show the very part of the text that has no value.
-/

namespace ArchDiagram.Yaml

open ArchDiagram.Text (CodePoints chars)

def dropUnderscores (text : CodePoints) : CodePoints := text.filter (· ≠ '_'.toNat)

def startsNegative (text : CodePoints) : Bool := text.head? = some '-'.toNat

def unsigned (text : CodePoints) : CodePoints := text.drop (signLength (chars text))

def digitsValue (base : Nat) (text : CodePoints) : Except Fault Int :=
  let fault := Fault.notInteger base text
  if base = 10 then
    match Decimal.readInteger (chars text) with
    | .error .malformed => .error fault
    | .error (.tooLong digits) => .error (.integerTooLong digits)
    | .ok value => .ok value
  else match Decimal.readInBase? base (chars text) with
    | some value => .ok value
    | none => .error fault

def splitAtColons : CodePoints → List CodePoints
  | [] => [[]]
  | code :: rest =>
    match splitAtColons rest with
    | [] => [[code]]
    | part :: more =>
      if code = ':'.toNat then [] :: part :: more else (code :: part) :: more

def negateIf (negative : Bool) (n : Int) : Int := if negative then -n else n

def integerSize (text : CodePoints) : Except Fault Int :=
  match chars text with
  | [] => .error .emptyNumber
  | ['0'] => .ok 0
  | '0' :: 'b' :: _ => digitsValue 2 (text.drop 2)
  | '0' :: 'x' :: _ => digitsValue 16 (text.drop 2)
  | '0' :: _ => digitsValue 8 text
  | cs =>
    if cs.contains ':' then do
      let parts ← (splitAtColons text).mapM (digitsValue 10)
      return parts.foldl (fun value part => 60 * value + part) 0
    else digitsValue 10 text

def integerOf (text : CodePoints) : Except Fault Int :=
  let digits := dropUnderscores text
  (integerSize (unsigned digits)).map (negateIf (startsNegative digits))

def floatValue (text : CodePoints) : Except Fault Decimal.Binary64 :=
  match Decimal.readNumber? (chars text) with
  | some number => .ok number
  | none => .error (.notFloat text)

/-- The sum of numbers that count powers of sixty, the least power first. Powers, products and sums
are rounded one by one. -/
def sumOfSixties : (power : Nat) → (sum : Decimal.Binary64) → List Decimal.Binary64 →
    Except Fault Decimal.Binary64
  | _, sum, [] => .ok sum
  | power, sum, part :: rest =>
    match Decimal.Binary64.ofNat? power with
    | some weight => sumOfSixties (60 * power) (sum.add (part.mul weight)) rest
    | none => .error .floatTooLarge

/-- The size of the number that a text without underscores, sign and capitals spells. What is no
number and is named so has no origin. -/
def floatSize (origin : Nat) (text : CodePoints) : Except Fault Scalar := do
  let cs := chars text
  if cs = ['.', 'n', 'a', 'n'] then
    return .notANumber none
  let number ←
    if cs = ['.', 'i', 'n', 'f'] then pure (.infinite false)
    else if cs.contains ':' then do
      let parts ← (splitAtColons text).mapM floatValue
      sumOfSixties 1 (.zero false) parts.reverse
    else floatValue text
  return if number = .notANumber then .notANumber origin else .float number

def floatOf (origin : Nat) (text : CodePoints) : Except Fault Scalar := do
  let digits := Text.lower (dropUnderscores text)
  if digits.isEmpty then
    throw .emptyNumber
  match ← floatSize origin (unsigned digits) with
  | .float number => return .float (if startsNegative digits then number.neg else number)
  | value => return value

def booleanOf (text : CodePoints) : Except Fault Bool :=
  let word := Text.lower text
  let letters := String.ofList (chars word)
  if letters ∈ ["yes", "true", "on"] then .ok true
  else if letters ∈ ["no", "false", "off"] then .ok false
  else .error (.notBoolean word)

/-- The time that a scalar of that type spells. A line feed at its end does not count. -/
def timestampOf (text : CodePoints) : Except Fault Timestamp :=
  match Timestamp.parse? (Text.dropLineFeed (chars text)) with
  | none => .error .notTimestamp
  | some timestamp =>
    match timestamp.fault? with
    | some fault => .error fault
    | none => .ok timestamp

def sixBits? (c : Char) : Option Nat :=
  if 'A' ≤ c ∧ c ≤ 'Z' then some (c.toNat - 65)
  else if 'a' ≤ c ∧ c ≤ 'z' then some (c.toNat - 71)
  else if '0' ≤ c ∧ c ≤ '9' then some (c.toNat + 4)
  else if c = '+' then some 62
  else if c = '/' then some 63
  else none

/-- The bytes that characters of six bits each spell. `place` counts the characters since the last
full group of four and `held` keeps their bits that make no byte yet; other characters are skipped,
and enough padding ends the text. -/
def bytesFrom? : (place held padding : Nat) → List Char → Option (List UInt8)
  | place, _, _, [] => if place = 0 then some [] else none
  | place, held, padding, c :: cs =>
    if c = '=' then
      if 2 ≤ place then
        if 4 ≤ place + padding + 1 then some [] else bytesFrom? place held (padding + 1) cs
      else bytesFrom? place held padding cs
    else match sixBits? c with
      | none => bytesFrom? place held padding cs
      | some bits =>
        if place = 0 then bytesFrom? 1 bits 0 cs
        else if place = 1 then
          (bytesFrom? 2 (bits % 16) 0 cs).map (UInt8.ofNat (4 * held + bits / 16) :: ·)
        else if place = 2 then
          (bytesFrom? 3 (bits % 4) 0 cs).map (UInt8.ofNat (16 * held + bits / 4) :: ·)
        else (bytesFrom? 0 0 0 cs).map (UInt8.ofNat (64 * held + bits) :: ·)

def bytesOf (text : CodePoints) : Except Fault (List UInt8) :=
  if text.all (· < 128) then
    match bytesFrom? 0 0 0 (chars text) with
    | some bytes => .ok bytes
    | none => .error .malformed
  else .error .malformed

def scalarValue (origin : Nat) (tag : Tag) (text : CodePoints) : Except Fault Scalar :=
  match tag with
  | .null => .ok .null
  | .boolean => .boolean <$> booleanOf text
  | .integer => .integer <$> integerOf text
  | .float => floatOf origin text
  | .timestamp => .timestamp <$> timestampOf text
  | .binary => .bytes <$> bytesOf text
  | .text => .ok (.text text)
  | _ => .error .malformed

end ArchDiagram.Yaml
