import ArchDiagram.Text.Line
import ArchDiagram.Yaml.Timestamp

/-!
Tags: the types of YAML values. A plain scalar has the first type whose form it has, and is a text
if it has none.
-/

namespace ArchDiagram.Yaml

inductive Tag
  | null
  | boolean
  | integer
  | float
  | binary
  | timestamp
  | orderedMap
  | pairs
  | set
  | text
  | sequence
  | mapping
  | merge
  | value
  | unknown
deriving DecidableEq, Repr

namespace Tag

def standardPrefix : String := "tag:yaml.org,2002:"

def ofName (name : String) : Tag :=
  let known : List (String × Tag) :=
    [("null", null), ("bool", boolean), ("int", integer), ("float", float), ("binary", binary),
     ("timestamp", timestamp), ("omap", orderedMap), ("pairs", pairs), ("set", set), ("str", text),
     ("seq", sequence), ("map", mapping), ("merge", merge), ("value", value)]
  ((known.find? fun entry => standardPrefix ++ entry.1 = name).map (·.2)).getD unknown

end Tag

def isDigit (c : Char) : Bool := c.isDigit

def isDigitOrLine (c : Char) : Bool := c.isDigit || c = '_'

def signLength : List Char → Nat
  | '+' :: _ | '-' :: _ => 1
  | _ => 0

def dropSign (cs : List Char) : List Char := cs.drop (signLength cs)

/-- One or more groups of digits below sixty, each behind a colon, and the text behind them. -/
def dropSixties : List Char → List Char
  | ':' :: a :: b :: rest =>
    if '0' ≤ a && a ≤ '5' && b.isDigit then dropSixties rest
    else if a.isDigit then dropSixties (b :: rest)
    else ':' :: a :: b :: rest
  | ':' :: a :: [] => if a.isDigit then [] else [':', a]
  | rest => rest
termination_by cs => cs.length

def isHexDigitOrLine (c : Char) : Bool :=
  isDigitOrLine c || ('a' ≤ c && c ≤ 'f') || ('A' ≤ c && c ≤ 'F')

/-- Whether a text has the form of an integer: binary, octal, decimal, hexadecimal, or in groups of
sixty. -/
def isInteger (cs : List Char) : Bool :=
  match dropSign cs with
  | '0' :: 'b' :: rest => !rest.isEmpty && rest.all fun c => c = '0' || c = '1' || c = '_'
  | '0' :: 'x' :: rest =>
    !rest.isEmpty && rest.all isHexDigitOrLine
  | '0' :: rest => rest.all fun c => ('0' ≤ c && c ≤ '7') || c = '_'
  | c :: rest =>
    c.isDigit && (dropSixties (rest.dropWhile isDigitOrLine)).isEmpty
  | [] => false

def isExponent : List Char → Bool
  | [] => true
  | c :: sign :: rest =>
    (c = 'e' || c = 'E') && (sign = '+' || sign = '-') && !rest.isEmpty && rest.all isDigit
  | _ => false

def isFraction : List Char → Bool
  | '.' :: rest => isExponent (rest.dropWhile isDigitOrLine)
  | _ => false

def isSixtyFraction (cs : List Char) : Bool :=
  match cs, dropSixties cs with
  | ':' :: _, '.' :: rest => rest.all isDigitOrLine
  | _, _ => false

def isFloat (cs : List Char) : Bool :=
  if String.ofList cs ∈ [".nan", ".NaN", ".NAN"] then true
  else
    match cs, dropSign cs with
    | '.' :: d :: rest, _ =>
      (d.isDigit && isExponent (rest.dropWhile isDigitOrLine))
        || String.ofList cs ∈ [".inf", ".Inf", ".INF"]
    | _, '.' :: rest => String.ofList rest ∈ ["inf", "Inf", "INF"]
    | _, c :: rest =>
      let behind := rest.dropWhile isDigitOrLine
      c.isDigit && (isFraction behind || isSixtyFraction behind)
    | _, [] => false

/-- The type of a plain scalar. A line feed at its end does not count, but a text of nothing else is
not empty. -/
def Tag.ofPlain (text : Text.CodePoints) : Tag :=
  let cs := Text.dropLineFeed (Text.chars text)
  let line := String.ofList cs
  if text.isEmpty then .null
  else if line ∈ ["yes", "Yes", "YES", "no", "No", "NO", "true", "True", "TRUE", "false", "False",
      "FALSE", "on", "On", "ON", "off", "Off", "OFF"] then .boolean
  else if isFloat cs then .float
  else if isInteger cs then .integer
  else if line = "<<" then .merge
  else if line ∈ ["~", "null", "Null", "NULL"] then .null
  else if Timestamp.isPlain cs then .timestamp
  else if line = "=" then .value
  else if line ∈ ["!", "&", "*"] then .unknown
  else .text

end ArchDiagram.Yaml
