import ArchDiagram.Syntax
import ArchDiagram.SyntaxError
import ArchDiagram.Decimal.Loose

/-!
A reading place in a list of tokens. A reader moves the cursor forward and reports what it does not
find; only a text that stands for no value stops it. All repetition goes through `repeatWhile`,
which ends because every round takes at least one token.
-/

namespace ArchDiagram.Syntax

/-- A token whose text stands for no value, so that no tree can be built. -/
inductive Fault
  | integerTooLong (digits : Nat)
  | malformedInteger (text : String)
  | malformedDecimal (text : String)
  | unknownOperator (text : String)
deriving DecidableEq, Repr

def Fault.message : Fault → String
  | integerTooLong digits => Decimal.tooLongMessage (some digits)
  | malformedInteger text => Decimal.malformedIntegerMessage 10 (Text.quoted text)
  | malformedDecimal text => Decimal.malformedNumberMessage (Text.quoted text)
  | unknownOperator text => Text.quoted text ++ " is not a valid RelationKind"

/-- The tokens that are not read yet, the token behind them all, the tokens behind that one, which are
never read, the end of the last token read, and the errors reported so far, the latest first. -/
structure Cursor where
  rest : List Token
  final : Token
  behind : List Token
  lastStop : Nat
  errors : List SyntaxError
  kind_final : final.kind = .endOfInput
deriving Repr

namespace Cursor

def current (cursor : Cursor) : Token := cursor.rest.headD cursor.final

def following (cursor : Cursor) : Token := cursor.rest.tail.headD cursor.final

/-- The token that stands behind the one at the cursor. To look ahead is not to read: at the end of
the input it shows what stands behind that end. -/
def ahead (cursor : Cursor) : Token :=
  match cursor.rest with
  | [] => cursor.behind.headD cursor.final
  | _ :: _ => cursor.following

/-- The cursor behind the next token. At the end it stays. -/
def advance (cursor : Cursor) : Cursor :=
  match cursor.rest with
  | [] => cursor
  | token :: rest => { cursor with rest := rest, lastStop := token.stop }

def report (cursor : Cursor) (cause : SyntaxError.Cause) (token : Token) : Cursor :=
  { cursor with errors := ⟨cause, token.position⟩ :: cursor.errors }

theorem length_advance_lt {cursor : Cursor} (more : cursor.rest ≠ []) :
    cursor.advance.rest.length < cursor.rest.length := by
  unfold advance
  split <;> simp_all

end Cursor

abbrev Reader := StateT Cursor (Except Fault)

def current : Reader Token := return (← get).current

def advance : Reader Token := do
  let token ← current
  modify Cursor.advance
  return token

def report (cause : SyntaxError.Cause) (token : Token) : Reader Unit :=
  modify (·.report cause token)

def isAt (kind : TokenKind) : Reader Bool := return (← current).kind = kind

def accept (kind : TokenKind) : Reader Bool := do
  if ← isAt kind then
    discard advance
    return true
  else
    return false

/-- Takes a token of the given kind. Another token is reported and stays. -/
def expect (kind : TokenKind) : Reader Token := do
  let token ← current
  if token.kind = kind then
    advance
  else
    report (.expected kind token.toLexeme) token
    return token

def expectText (kind : TokenKind) : Reader String := do
  let token ← expect kind
  return if token.kind = kind then token.text else ""

def expectIdentifier : Reader String := expectText .identifier

def expectName : Reader String := do
  let token ← current
  if token.kind.isName then
    discard advance
    return token.text
  else
    report (.expectedName token.toLexeme) token
    return ""

def skipUnexpected (region : Region) : Reader Unit := do
  let token ← current
  report (.unexpectedIn region token.text) token
  discard advance

/-- The span from a token to the last one taken. If none was taken since, the span is empty. -/
def spanFrom (first : Token) : Reader Span :=
  return ⟨first.position, max (← get).lastStop first.position.offset⟩

/-- The number of tokens before the closing mark that belongs to an opening mark already taken,
where `depth` more are open. -/
def nestedLength (opening closing : TokenKind) : (depth : Nat) → List Token → Nat
  | _, [] => 0
  | depth, token :: rest =>
    if token.kind = opening then nestedLength opening closing (depth + 1) rest + 1
    else if token.kind = closing then
      match depth with
      | 0 => 0
      | depth + 1 => nestedLength opening closing depth rest + 1
    else nestedLength opening closing depth rest + 1

/-- Takes the tokens up to the closing mark that belongs to an opening mark already taken. -/
def skipNested (opening closing : TokenKind) : Reader Unit :=
  modify fun cursor => (nestedLength opening closing 0 cursor.rest).repeat Cursor.advance cursor

/-- Repeats a reader as long as it gives something and takes a token each time. -/
def repeatWhile {α : Type} (step : Reader (Option α)) (cursor : Cursor) :
    Except Fault (List α × Cursor) :=
  match step.run cursor with
  | .error fault => .error fault
  | .ok (none, next) => .ok ([], next)
  | .ok (some found, next) =>
    if next.rest.length < cursor.rest.length then
      (repeatWhile step next).map fun (more, last) => (found :: more, last)
    else .ok ([found], next)
termination_by cursor.rest.length

def commaRound {α : Type} (item : Reader α) : Reader (Option α) := do
  if ← accept (.mark .comma) then
    return some (← item)
  else
    return none

def behindCommas {α : Type} (item : Reader α) : Reader (List α) := repeatWhile (commaRound item)

def separatedByCommas {α : Type} (item : Reader α) : Reader (List α) := do
  return (← item) :: (← behindCommas item)

/-- A round of `many`: nothing at the closing mark or the end of the input, otherwise a thing. Where
it takes no token, the token at the cursor is reported and taken. -/
def manyRound {α : Type} (closing : TokenKind) (region : Region) (item : Reader (Option α)) :
    Reader (Option (Option α)) := do
  let before ← get
  if before.rest.isEmpty || before.current.kind = closing then
    return none
  else
    let found ← item
    if (← get).rest.length = before.rest.length then
      skipUnexpected region
    return some found

def many {α : Type} (closing : TokenKind) (region : Region) (item : Reader (Option α)) :
    Reader (List α) := do
  return (← repeatWhile (manyRound closing region item)).filterMap id

end ArchDiagram.Syntax
