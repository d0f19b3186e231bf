import ArchDiagram.Syntax.Cursor
import ArchDiagram.Token.Lexer

/-!
The grammar of diagrams, one reader per construct. A reader never gives up: what is missing is
reported and replaced by an empty name or a neutral value, so every list of tokens has a tree.
Packages and type arguments may be nested a hundred levels deep in all; what lies deeper is
reported and left out. The levels that are left over are passed down as `budget`.
-/

namespace ArchDiagram.Syntax

/-- How many levels of packages and type arguments are read. -/
def nestingLimit : Nat := 100

def importDecl : Reader ImportDecl := do
  let first ← expect (.keyword .importWord)
  let path ← expectText .string
  discard (accept (.mark .semicolon))
  return ⟨path, ← spanFrom first⟩

def modifierRound : Reader (Option Modifier) := do
  match (← current).kind with
  | .keyword (.modifier word) =>
    discard advance
    return some word
  | _ => return none

def modifiers : Reader (List Modifier) := repeatWhile modifierRound

def isTypeName (kind : TokenKind) : Bool :=
  match kind with
  | .identifier | .keyword (.builtin _) => true
  | _ => false

def typeArguments (argument : Reader TypeExpr) : Reader (List TypeExpr) := do
  discard (expect (.mark .less))
  let args ← separatedByCommas argument
  discard (expect (.mark .greater))
  return args

/-- The name of a type with its arguments, which are left out where no level is left for them. -/
def typeBase (arguments? : Option (Reader (List TypeExpr))) : Reader TypeExpr := do
  let first ← current
  if isTypeName first.kind then
    discard advance
    if ← isAt (.mark .less) then
      match arguments? with
      | some arguments =>
        let args ← arguments
        return .generic first.text args (← spanFrom first)
      | none =>
        report .nestingTooDeep (← advance)
        skipNested (.mark .less) (.mark .greater)
        discard (expect (.mark .greater))
        return .simple first.text (← spanFrom first)
    else
      return .simple first.text (← spanFrom first)
  else
    report (.expectedType first.toLexeme) first
    return .simple "any" (← spanFrom first)

/-- A type with an optional question mark, which stands for the whole type before it. -/
def typeWith (arguments? : Option (Reader (List TypeExpr))) : Reader TypeExpr := do
  let first ← current
  let base ← typeBase arguments?
  if ← accept (.mark .question) then
    return .nullable base (← spanFrom first)
  else
    return base

def typeExpr : (budget : Nat) → Reader TypeExpr
  | 0 => typeWith none
  | budget + 1 => typeWith (some (typeArguments (typeExpr budget)))

def integerValue (text : String) : Except Fault Int :=
  match Decimal.readInteger text.toList with
  | .error .malformed => .error (.malformedInteger text)
  | .error (.tooLong digits) => .error (.integerTooLong digits)
  | .ok value => .ok value

def decimalValue (text : String) : Except Fault Decimal.Binary64 :=
  match Decimal.readNumber? text.toList with
  | none => .error (.malformedDecimal text)
  | some value => .ok value

def numberValue (text : String) : Except Fault Constant :=
  if '.' ∈ text.toList then .decimal <$> decimalValue text else .integer <$> integerValue text

def constant? (lexeme : Lexeme) : Option (Except Fault Constant) :=
  match lexeme.kind with
  | .string => some (.ok (.text lexeme.text))
  | .number => some (numberValue lexeme.text)
  | .identifier =>
    if lexeme.text = "true" then some (.ok (.boolean true))
    else if lexeme.text = "false" then some (.ok (.boolean false))
    else none
  | _ => none

def literal : Reader Literal := do
  let token ← current
  match constant? token.toLexeme with
  | some value =>
    discard advance
    return ⟨← value, ← spanFrom token⟩
  | none =>
    report (.expectedLiteral token.toLexeme) token
    return ⟨.text "", ← spanFrom token⟩

def visibility? : TokenKind → Option VisibilityMark
  | .mark .plus => some .plus
  | .mark .minus => some .minus
  | .mark .hash => some .hash
  | .mark .tilde => some .tilde
  | _ => none

def visibility : Reader VisibilityMark := do
  match visibility? (← current).kind with
  | some mark =>
    discard advance
    return mark
  | none => return .absent

def param (budget : Nat) : Reader ParamDecl := do
  let first ← current
  let name ← expectName
  discard (expect (.mark .colon))
  let type ← typeExpr budget
  return ⟨name, type, ← spanFrom first⟩

def defaultValue : Reader (Option Literal) := do
  if ← accept (.mark .equals) then
    return some (← literal)
  else
    return none

def fieldRest (budget : Nat) (first : Token) (visibility : VisibilityMark)
    (modifiers : List Modifier) (name : String) : Reader FieldDecl := do
  discard (expect (.mark .colon))
  let type ← typeExpr budget
  let value ← defaultValue
  discard (accept (.mark .semicolon))
  return ⟨visibility, modifiers, name, type, value, ← spanFrom first⟩

def params (budget : Nat) : Reader (List ParamDecl) := do
  if ← isAt (.mark .rightParen) then
    return []
  else
    separatedByCommas (param budget)

def methodRest (budget : Nat) (first : Token) (visibility : VisibilityMark)
    (modifiers : List Modifier) (name : String) : Reader MethodDecl := do
  discard (expect (.mark .leftParen))
  let params ← params budget
  discard (expect (.mark .rightParen))
  discard (expect (.mark .colon))
  let type ← typeExpr budget
  discard (accept (.mark .semicolon))
  return ⟨visibility, modifiers, name, params, type, ← spanFrom first⟩

def isModifier : TokenKind → Bool
  | .keyword (.modifier _) => true
  | _ => false

def isMemberStart (kind : TokenKind) : Bool := (visibility? kind).isSome || kind.isName

/-- A field or method. A token that begins neither is reported and taken. -/
def fieldOrMethod (budget : Nat) (kind : EntityKind) : Reader (Option Member) := do
  let first ← current
  if isMemberStart first.kind then
    let visibility ← visibility
    let modifiers ← modifiers
    let name ← expectName
    if name = "" then
      return none
    else if ← isAt (.mark .leftParen) then
      return some (.method (← methodRest budget first visibility modifiers name))
    else
      return some (.field (← fieldRest budget first visibility modifiers name))
  else
    skipUnexpected (.entityBody kind)
    return none

/-- Whether an enumeration goes on with a value: a name that is no modifier and that neither a type
nor parameters follow. -/
def isAtValue (cursor : Cursor) : Bool :=
  let kind := cursor.current.kind
  let next := cursor.ahead.kind
  kind.isName && !isModifier kind && next ≠ .mark .colon && next ≠ .mark .leftParen

def valueDecl : Reader ValueDecl := do
  let token ← advance
  return ⟨token.text, ← spanFrom token⟩

def enumerationMember (budget : Nat) : Reader (Option Member) := do
  if ← accept (.mark .comma) then
    return none
  else if isAtValue (← get) then
    return some (.value (← valueDecl))
  else
    fieldOrMethod budget .enumeration

/-- A member of an entity, or nothing for a separator. -/
def member (budget : Nat) (kind : EntityKind) : Reader (Option Member) := do
  if ← accept (.mark .semicolon) then
    return none
  else if kind = .enumeration then
    enumerationMember budget
  else
    fieldOrMethod budget kind

/-- The word for the kind of an entity. Without one the entity is a class. -/
def entityKind : Reader EntityKind := do
  let token ← current
  match token.kind with
  | .keyword (.entity kind) =>
    discard advance
    return kind
  | _ =>
    report (.expectedEntityKind token.toLexeme) token
    return .classType

/-- The two adjacent marks that close a stereotype. A single one is taken. -/
def stereotypeClose : Reader Unit := do
  let cursor ← get
  let first := cursor.current
  let second := cursor.ahead
  if first.kind = .mark .greater ∧ second.kind = .mark .greater
      ∧ second.position.offset = first.stop then
    discard advance
    discard advance
  else
    report (.expectedStereotypeClose first.toLexeme) first
    discard (accept (.mark .greater))

def stereotype : Reader (Option String) := do
  if ← accept .stereotypeOpen then
    let name ← expectIdentifier
    stereotypeClose
    return some name
  else
    return none

/-- The names behind a word, if the word is there. Missing names are left out. -/
def namesBehind (word : Keyword) : Reader (List String) := do
  if ← accept (.keyword word) then
    let names ← separatedByCommas expectIdentifier
    return names.filter (· ≠ "")
  else
    return []

def members (budget : Nat) (kind : EntityKind) : Reader (List Member) := do
  if ← accept (.mark .leftBrace) then
    let found ← many (.mark .rightBrace) (.entityBody kind) (member budget kind)
    discard (expect (.mark .rightBrace))
    return found
  else
    return []

def entity (budget : Nat) : Reader EntityDecl := do
  let first ← current
  let modifiers ← modifiers
  let kind ← entityKind
  let name ← expectIdentifier
  let stereotype ← stereotype
  let extendsNames ← namesBehind .extendsWord
  let implementsNames ← namesBehind .implementsWord
  let members ← members budget kind
  return ⟨modifiers, kind, name, stereotype, extendsNames, implementsNames, members,
    ← spanFrom first⟩

def attributeValue : Reader String := do
  if ← isAt .color then
    return (← advance).text
  else
    expectText .string

def styleValue : Reader String := do
  if ← isAt .number then
    return (← advance).text
  else
    attributeValue

def setting (value : Reader String) (separators : List TokenKind) :
    Reader (Option (String × String)) := do
  let key ← expectName
  discard (expect (.mark .equals))
  let value ← value
  if (← current).kind ∈ separators then
    discard advance
  return some (key, value)

def attributes : Reader (List (String × String)) := do
  if ← accept (.mark .leftBracket) then
    let found ← many (.mark .rightBracket) .relationAttributes
      (setting attributeValue [.mark .comma])
    discard (expect (.mark .rightBracket))
    return found
  else
    return []

def lastValue? (key : String) (writes : List (String × String)) : Option String :=
  (OrderedMap.ofList writes).get? key

/-- The attributes that a relation gives a meaning of its own. -/
def relationKeys : List String := ["label", "fromMult", "toMult"]

def styleWrites (writes : List (String × String)) : List (String × String) :=
  writes.filter fun write => write.1 ≠ "" ∧ write.1 ∉ relationKeys

def relationOperator (text : String) : Except Fault RelationOperator :=
  match RelationOperator.ofSymbol? text with
  | some operator => .ok operator
  | none => .error (.unknownOperator text)

def relation : Reader RelationDecl := do
  let first ← expect .identifier
  let symbol ← advance
  let operator ← relationOperator symbol.text
  let target ← expectIdentifier
  let writes ← attributes
  return {
    source := first.text
    target := target
    operator := operator
    label := lastValue? "label" writes
    sourceMultiplicity := lastValue? "fromMult" writes
    targetMultiplicity := lastValue? "toMult" writes
    style := .ofList (styleWrites writes)
    span := ← spanFrom first }

def noteTarget : Reader (Option String) := do
  if ← accept (.keyword .onWord) then
    let name ← expectIdentifier
    return if name = "" then none else some name
  else
    return none

def note : Reader NoteDecl := do
  let first ← expect (.keyword .note)
  let text ← expectText .string
  let target ← noteTarget
  return ⟨text, target, ← spanFrom first⟩

def style : Reader StyleDecl := do
  let first ← expect (.keyword .style)
  let target ← expectIdentifier
  discard (expect (.mark .leftBrace))
  let writes ← many (.mark .rightBrace) .styleBlock
    (setting styleValue [.mark .semicolon, .mark .comma])
  discard (expect (.mark .rightBrace))
  return ⟨target, .ofList (writes.filter (·.1 ≠ "")), ← spanFrom first⟩

/-- A coordinate; zero where it is missing. -/
def coordinate : Reader Decimal.Binary64 := do
  let token ← expect .number
  if token.kind = .number then
    decimalValue token.text
  else
    return .zero false

def layout : Reader LayoutDecl := do
  let first ← expect (.mark .atSign)
  let target ← expectIdentifier
  discard (expect (.keyword .atWord))
  discard (expect (.mark .leftParen))
  let x ← coordinate
  discard (expect (.mark .comma))
  let y ← coordinate
  discard (expect (.mark .rightParen))
  return ⟨target, x, y, ← spanFrom first⟩

/-- A package whose items are read by `body?`, or left out where no level is left for them. -/
def packageWith (body? : Option (Reader (List Item))) : Reader Item := do
  let first ← expect (.keyword .package)
  let name ← expectIdentifier
  let brace ← expect (.mark .leftBrace)
  let items ← match body? with
    | some body => body
    | none =>
      report .nestingTooDeep brace
      if brace.kind = .mark .leftBrace then
        skipNested (.mark .leftBrace) (.mark .rightBrace)
      pure []
  discard (expect (.mark .rightBrace))
  return .package name items (← spanFrom first)

def declaration (budget : Nat) (region : Region) : Reader (Option Declaration) := do
  let cursor ← get
  match cursor.current.kind with
  | .mark .atSign => return some (.layout (← layout))
  | .keyword .note => return some (.note (← note))
  | .keyword .style => return some (.style (← style))
  | .keyword (.modifier _) | .keyword (.entity _) => return some (.entity (← entity budget))
  | .identifier =>
    if cursor.ahead.kind.isRelation then
      return some (.relation (← relation))
    else
      skipUnexpected region
      return none
  | _ =>
    skipUnexpected region
    return none

def item (budget : Nat) (region : Region) (package : Reader Item) : Reader (Option Item) := do
  if ← isAt (.keyword .package) then
    return some (← package)
  else
    return (← declaration budget region).map .declaration

def items : (budget : Nat) → Region → Reader (List Item)
  | 0, region => many (.mark .rightBrace) region (item 0 region (packageWith none))
  | budget + 1, region =>
    many (.mark .rightBrace) region
      (item (budget + 1) region (packageWith (some (items budget .packageBody))))

/-- The word for the kind of a diagram. It is known by its text, whatever kind of token it is; only
a string is no word. An unknown word makes the diagram a class diagram. -/
def diagramKind : Reader DiagramKind := do
  let token ← current
  match if token.kind = .string then none else DiagramKind.ofWord? token.text with
  | some kind =>
    discard advance
    return kind
  | none =>
    report (.unknownDiagramKind token.text) token
    -- A brace in place of the kind is left for the body that it opens.
    if token.kind ≠ .mark .leftBrace then
      discard advance
    return .classes

def diagramDecl : Reader DiagramDecl := do
  let first ← expect (.keyword .diagram)
  let name ← expectIdentifier
  discard (expect (.mark .colon))
  let kind ← diagramKind
  discard (expect (.mark .leftBrace))
  let body ← items nestingLimit .diagramBody
  discard (expect (.mark .rightBrace))
  return ⟨name, kind, body, ← spanFrom first⟩

inductive TopLevel
  | imported (decl : ImportDecl)
  | diagram (decl : DiagramDecl)
  | stray

/-- An import, a diagram, or a token that is neither; nothing at the end of the input. -/
def topLevel : Reader (Option TopLevel) := do
  let cursor ← get
  let token := cursor.current
  if cursor.rest.isEmpty then
    return none
  else match token.kind with
    | .keyword .importWord => return some (.imported (← importDecl))
    | .keyword .diagram => return some (.diagram (← diagramDecl))
    | _ =>
      report (.unexpectedAtTopLevel token.text) token
      discard advance
      return some .stray

def importsOf (parts : List TopLevel) : List ImportDecl :=
  parts.filterMap fun | .imported decl => some decl | _ => none

def diagramsOf (parts : List TopLevel) : List DiagramDecl :=
  parts.filterMap fun | .diagram decl => some decl | _ => none

/-- A program. Its span runs from the first token to the end of the input. -/
def program : Reader Program := do
  let first ← current
  let parts ← repeatWhile topLevel
  let last ← current
  return ⟨importsOf parts, diagramsOf parts, ⟨first.position, last.stop⟩⟩

/-- The token that closes a list of tokens that has no end. -/
def closingToken (tokens : List Token) : Token :=
  match tokens.getLast? with
  | some last =>
    ⟨⟨.endOfInput, ""⟩, ⟨last.stop, last.position.line, last.position.column⟩, last.stop⟩
  | none => ⟨⟨.endOfInput, ""⟩, .start, 0⟩

def endOf (tokens : List Token) : Token :=
  (tokens.find? (·.kind = .endOfInput)).getD (closingToken tokens)

theorem kind_closingToken (tokens : List Token) : (closingToken tokens).kind = .endOfInput := by
  unfold closingToken
  split <;> rfl

theorem kind_endOf (tokens : List Token) : (endOf tokens).kind = .endOfInput := by
  unfold endOf
  cases found : tokens.find? (·.kind = .endOfInput) with
  | none => exact kind_closingToken tokens
  | some token => simpa using List.find?_some found

/-- A list of tokens with an end behind it, if its last token is none. -/
def ended (tokens : List Token) : List Token :=
  if tokens.getLast?.any (·.kind = .endOfInput) then tokens else tokens ++ [closingToken tokens]

/-- The cursor in front of a list of tokens, which are read up to the first end. -/
def Cursor.ofTokens (tokens : List Token) : Cursor where
  rest := tokens.takeWhile (·.kind ≠ .endOfInput)
  final := endOf tokens
  behind := ((ended tokens).dropWhile (·.kind ≠ .endOfInput)).tail
  lastStop := 0
  errors := []
  kind_final := kind_endOf tokens

/-- A tree with all that was reported about its text, in order. -/
structure Parsed where
  program : Program
  errors : List SyntaxError
deriving Repr

def parseTokens (tokens : List Token) : Except Fault Parsed :=
  (program.run (.ofTokens tokens)).map fun (program, cursor) => ⟨program, cursor.errors.reverse⟩

/-- The program that a source stands for. Errors in single tokens come first. -/
def parse (source : String) : Except Fault Parsed :=
  let lexed := Lexer.lex source
  (parseTokens lexed.tokens).map fun parsed =>
    { parsed with errors := lexed.errors ++ parsed.errors }

end ArchDiagram.Syntax
