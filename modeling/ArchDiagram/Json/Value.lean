import ArchDiagram.Decimal.Notation
import ArchDiagram.Text.Quoted

/-!
JSON values and their text. The entries of an object stay in the order in which they are given, and
every entry and item has a line of its own, indented by its depth. Only empty collections are
written on one line.
-/

namespace ArchDiagram.Json

/-- A value. A number that is not finite has no text of its own and is written as `null`. -/
inductive Value
  | null
  | boolean (value : Bool)
  | number (value : Decimal.Binary64)
  | text (value : String)
  | list (items : List Value)
  | object (entries : List (String × Value))
deriving Repr

/-- Numbers have all their digits from five places behind the point up to sixteen before it. -/
def numberLayout : Decimal.Layout := ⟨-5, 15, 1⟩

def numberText : Decimal.Binary64 → String
  | .finite negative significand exponent =>
    numberLayout.text (.finite negative significand exponent)
  | _ => "null"

/-- One character inside a text. Only the quotation mark, the backslash and control characters are
written as escapes. -/
def escapedChar (c : Char) : List Char :=
  if c = '"' ∨ c = '\\' then ['\\', c]
  else if c = '\x08' then ['\\', 'b']
  else if c = '\t' then ['\\', 't']
  else if c = '\n' then ['\\', 'n']
  else if c = '\x0c' then ['\\', 'f']
  else if c = '\r' then ['\\', 'r']
  else if c < ' ' then '\\' :: 'u' :: Text.hexDigits 4 c.toNat
  else [c]

def quoted (text : String) : String :=
  String.ofList ('"' :: text.toList.flatMap escapedChar ++ ['"'])

def lineStart (indent depth : Nat) : String :=
  "\n" ++ String.ofList (List.replicate (indent * depth) ' ')

def enclosed (indent depth : Nat) (opening closing : String) (items : List String) : String :=
  if items.isEmpty then opening ++ closing
  else
    let start := lineStart indent (depth + 1)
    opening ++ start ++ ("," ++ start).intercalate items ++ lineStart indent depth ++ closing

mutual

def Value.textAt (indent depth : Nat) : Value → String
  | .null => "null"
  | .boolean value => if value then "true" else "false"
  | .number value => numberText value
  | .text value => quoted value
  | .list items => enclosed indent depth "[" "]" (itemTexts indent (depth + 1) items)
  | .object entries =>
    enclosed indent depth "\x7b" "\x7d" (entryTexts indent (depth + 1) entries)

def itemTexts (indent depth : Nat) : List Value → List String
  | [] => []
  | item :: rest => item.textAt indent depth :: itemTexts indent depth rest

def entryTexts (indent depth : Nat) : List (String × Value) → List String
  | [] => []
  | entry :: rest => entryText indent depth entry :: entryTexts indent depth rest

def entryText (indent depth : Nat) : String × Value → String
  | (key, value) => quoted key ++ ": " ++ value.textAt indent depth

end

def Value.layout (indent : Nat) (value : Value) : String := value.textAt indent 0

def Value.ofText? : Option String → Value
  | some words => .text words
  | none => .null

end ArchDiagram.Json
