import ArchDiagram.Yaml.Token.Scalar

/-!
Splitting a document into tokens. A colon may turn out to stand behind a key that was read before
as something else, so each token that could begin a key is remembered as a candidate until the line
ends; when the colon comes, the key token is put in front of it. The first token on a line that is
indented more than the lines before opens a block, and a line that is indented less closes blocks.
Where the text cannot be read further, the tokens in front of the first candidate are settled, and
a broken one takes the place of the others.
-/

namespace ArchDiagram.Yaml

/-- A token that may turn out to begin a key: its place among the tokens and in the text. Where no
other token can stand, it must turn out so. -/
structure Candidate where
  tokenNumber : Nat
  isRequired : Bool
  spot : Spot
deriving Repr

/-- How far a document is read. The candidates are kept by the depth of flow collections. -/
structure Lexer where
  spot : Spot
  tokens : Array Token
  flowDepth : Nat
  indent : Int
  outerIndents : List Int
  allowsKey : Bool
  candidates : List (Nat × Candidate)

abbrev Lexing := StateT Lexer (Except Fault)

namespace Lexer

/-- The beginning of a text. A byte order mark there is skipped. -/
def start (text : List Char) : Lexer where
  spot :=
    let spot : Spot := ⟨text, 0, 0, 0⟩
    if spot.peek = some '\ufeff' then spot.next else spot
  tokens := #[]
  flowDepth := 0
  indent := -1
  outerIndents := []
  allowsKey := true
  candidates := []

/-- Whether a candidate has been left behind: it is on another line or more than 1024 characters
back. -/
def isStale (lexer : Lexer) (candidate : Candidate) : Bool :=
  candidate.spot.line ≠ lexer.spot.line || 1024 < lexer.spot.index - candidate.spot.index

/-- The tokens that no further reading changes: those in front of the first candidate. -/
def settled (lexer : Lexer) : List Token :=
  let waiting := (lexer.candidates.map (·.2)).filter (!lexer.isStale ·)
  let count := (waiting.map (·.tokenNumber)).foldl min lexer.tokens.size
  lexer.tokens.toList.take count

def isInBlock (lexer : Lexer) : Bool := lexer.flowDepth = 0

def push (token : Token) (lexer : Lexer) : Lexer := { lexer with tokens := lexer.tokens.push token }

def moveTo (spot : Spot) (lexer : Lexer) : Lexer := { lexer with spot := spot }

def allowKey (allowed : Bool) (lexer : Lexer) : Lexer := { lexer with allowsKey := allowed }

def insert (number : Nat) (token : Token) (lexer : Lexer) : Lexer :=
  { lexer with tokens := lexer.tokens.insertIdxIfInBounds number token }

def closeBlocks (column : Int) : List Int → Lexer → Lexer
  | [], lexer => { lexer with outerIndents := [] }
  | outer :: rest, lexer =>
    if column < lexer.indent then
      closeBlocks column rest (push .blockEnd { lexer with indent := outer, outerIndents := rest })
    else { lexer with outerIndents := outer :: rest }

/-- Closes the blocks that end before a column. In flow collections indentation does not count. -/
def unwind (column : Int) (lexer : Lexer) : Lexer :=
  if lexer.isInBlock then closeBlocks column lexer.outerIndents lexer else lexer

def isDeeper (column : Nat) (lexer : Lexer) : Bool := lexer.indent < column

def openBlock (column : Nat) (lexer : Lexer) : Lexer :=
  { lexer with indent := column, outerIndents := lexer.indent :: lexer.outerIndents }

/-- Skips blanks, comments and ends of lines before the next token. In a block the end of a line
makes room for a key. -/
def skipSpace : (steps : Nat) → Lexer → Lexer
  | 0, lexer => lexer
  | steps + 1, lexer =>
    let spot := (lexer.spot.skipWhile (· = ' ')).skipComment
    if spot.isAt isBreak then
      skipSpace steps
        { lexer with spot := spot.lineBreak.2, allowsKey := lexer.allowsKey || lexer.isInBlock }
    else moveTo spot lexer

end Lexer

open ArchDiagram.Yaml.Lexer

def require (condition : Bool) : Lexing Unit :=
  if condition then pure () else throw .malformed

def dropStale : Lexing Unit := do
  let lexer ← get
  let (stale, fresh) := lexer.candidates.partition fun entry => lexer.isStale entry.2
  require (stale.all fun entry => !entry.2.isRequired)
  set { lexer with candidates := fresh }

def dropCandidate : Lexing Unit := do
  let lexer ← get
  require ((lexer.candidates.lookup lexer.flowDepth).all fun candidate => !candidate.isRequired)
  set { lexer with candidates := lexer.candidates.filter (·.1 ≠ lexer.flowDepth) }

/-- Remembers the next token as a candidate, if a key may begin there. -/
def addCandidate : Lexing Unit := do
  if (← get).allowsKey then
    dropCandidate
    modify fun lexer =>
      let isRequired := lexer.isInBlock && lexer.indent = lexer.spot.column
      let candidate : Candidate := ⟨lexer.tokens.size, isRequired, lexer.spot⟩
      { lexer with candidates := (lexer.flowDepth, candidate) :: lexer.candidates }

def take (count : Nat) (token : Token) : Lexing Unit :=
  modify fun lexer => push token (moveTo (lexer.spot.forward count) lexer)

def name : Lexing String := do
  let (found, behind) := (← get).spot.takeWhile isNameChar
  require !found.isEmpty
  modify (moveTo behind)
  return String.ofList found

def skipSpaces : Lexing Unit := modify fun lexer => moveTo (lexer.spot.skipWhile (· = ' ')) lexer

def percentBytes : List Char → Option (List UInt8 × List Char)
  | '%' :: a :: b :: rest =>
    match hexDigit? a, hexDigit? b with
    | some high, some low =>
      (percentBytes rest).map fun (bytes, behind) =>
        (UInt8.ofNat (16 * high + low) :: bytes, behind)
    | _, _ => none
  | '%' :: _ => none
  | rest => some ([], rest)

def percentText (bytes : List UInt8) : Option (List Char) :=
  (String.fromUTF8? ⟨bytes.toArray⟩).map String.toList

def tagText : (steps : Nat) → List Char → Option (List Char × List Char)
  | 0, rest => some ([], rest)
  | steps + 1, rest =>
    match rest with
    | [] => some ([], [])
    | c :: more =>
      if c = '%' then do
        let (bytes, behind) ← percentBytes rest
        let text ← percentText bytes
        let (tail, last) ← tagText steps behind
        return (text ++ tail, last)
      else if isTagChar c then
        (tagText steps more).map fun (tail, last) => (c :: tail, last)
      else some ([], rest)

def tagSuffix : Lexing String := do
  let spot := (← get).spot
  match tagText (spot.rest.length + 1) spot.rest with
  | none => throw .malformed
  | some (text, behind) =>
    let length := spot.rest.length - behind.length
    require (0 < length)
    modify (moveTo (spot.forward length))
    return String.ofList text

/-- The handle of a tag: one mark, or a name between two. -/
def tagHandle : Lexing String := do
  let spot := (← get).spot
  require (spot.peek = some '!')
  let (inside, behind) := spot.next.takeWhile isNameChar
  if spot.next.peek = some ' ' then
    modify (moveTo spot.next)
    return "!"
  else
    require (behind.peek = some '!')
    modify (moveTo behind.next)
    return String.ofList ('!' :: inside ++ ['!'])

def hasHandle (spot : Spot) : Bool :=
  ((spot.next.rest.takeWhile (!isSpaceOrBreak ·)).contains '!')

def tag : Lexing Token := do
  let spot := (← get).spot
  let found ←
    if spot.peekNext = some '<' then do
      modify (moveTo (spot.forward 2))
      let suffix ← tagSuffix
      require ((← get).spot.peek = some '>')
      modify fun lexer => moveTo lexer.spot.next lexer
      pure (Token.tag none suffix)
    else if spot.isBeforeOrEnd isBlankOrBreak then do
      modify (moveTo spot.next)
      pure (Token.tag none "!")
    else if hasHandle spot then do
      let handle ← tagHandle
      pure (Token.tag (some handle) (← tagSuffix))
    else do
      modify (moveTo spot.next)
      pure (Token.tag (some "!") (← tagSuffix))
  require ((← get).spot.isAtOrEnd isSpaceOrBreak)
  return found

def number : Lexing Nat := do
  let (digits, behind) := (← get).spot.takeWhile Char.isDigit
  require !digits.isEmpty
  if Decimal.digitLimit < digits.length then
    throw (.integerTooLong digits.length)
  modify (moveTo behind)
  return digits.foldl (fun value c => 10 * value + (c.toNat - 48)) 0

def directiveOf (name : String) : Lexing Directive := do
  if name = "YAML" then
    skipSpaces
    let major ← number
    require ((← get).spot.peek = some '.')
    modify fun lexer => moveTo lexer.spot.next lexer
    discard number
    require ((← get).spot.isAtOrEnd isSpaceOrBreak)
    return .version major
  else if name = "TAG" then
    skipSpaces
    let handle ← tagHandle
    require ((← get).spot.peek = some ' ')
    skipSpaces
    let text ← tagSuffix
    require ((← get).spot.isAtOrEnd isSpaceOrBreak)
    return .tagPrefix handle text
  else
    modify fun lexer => moveTo (lexer.spot.skipWhile (!isBreak ·)) lexer
    return .other

def directive : Lexing Unit := do
  modify fun lexer => moveTo lexer.spot.next lexer
  let name ← name
  require ((← get).spot.isAtOrEnd isSpaceOrBreak)
  let directive ← directiveOf name
  let behind ← (← get).spot.skipLineRest?
  modify fun lexer => push (.directive directive) (moveTo behind lexer)

def leaveDocument : Lexing Unit := do
  modify (unwind (-1))
  dropCandidate
  modify (allowKey false)

def openFlow (token : Token) : Lexing Unit := do
  addCandidate
  modify fun lexer => { lexer with flowDepth := lexer.flowDepth + 1, allowsKey := true }
  take 1 token

def closeFlow (token : Token) : Lexing Unit := do
  require (0 < (← get).flowDepth)
  dropCandidate
  modify fun lexer => { lexer with flowDepth := lexer.flowDepth - 1, allowsKey := false }
  take 1 token

def flowEntry : Lexing Unit := do
  modify (allowKey true)
  dropCandidate
  take 1 .flowEntry

/-- In a block, opens a block at the place if it is deeper than the open one. A new entry is only
allowed where a key is. -/
def enterBlock (token : Token) : Lexing Unit := do
  let lexer ← get
  if lexer.isInBlock then
    require lexer.allowsKey
    if lexer.isDeeper lexer.spot.column then
      modify fun lexer => push token (openBlock lexer.spot.column lexer)

def blockEntry : Lexing Unit := do
  enterBlock .blockSequenceStart
  modify (allowKey true)
  dropCandidate
  take 1 .blockEntry

def explicitKey : Lexing Unit := do
  enterBlock .blockMappingStart
  modify fun lexer => allowKey lexer.isInBlock lexer
  dropCandidate
  take 1 .key

def confirmKey (candidate : Candidate) : Lexing Unit :=
  modify fun lexer =>
    let column := candidate.spot.column
    let number := candidate.tokenNumber
    let opensBlock := lexer.isInBlock && lexer.isDeeper column
    let lexer := allowKey false (insert number .key
      { lexer with candidates := lexer.candidates.filter (·.1 ≠ lexer.flowDepth) })
    if opensBlock then insert number .blockMappingStart (openBlock column lexer) else lexer

def value : Lexing Unit := do
  let lexer ← get
  match lexer.candidates.lookup lexer.flowDepth with
  | some candidate => confirmKey candidate
  | none =>
    enterBlock .blockMappingStart
    modify fun lexer => allowKey lexer.isInBlock lexer
    dropCandidate
  take 1 .value

def beginNode : Lexing Unit := do
  addCandidate
  modify (allowKey false)

def reference (token : String → Token) : Lexing Unit := do
  beginNode
  modify fun lexer => moveTo lexer.spot.next lexer
  let name ← name
  require ((← get).spot.isAtOrEnd fun c => isBlankOrBreak c || "?:,]\x7d%@\x60".toList.contains c)
  modify (push (token name))

def quoted : Lexing Unit := do
  beginNode
  let (text, behind) ← quotedScalar (← get).spot
  modify fun lexer => push (.scalar text false) (moveTo behind lexer)

def block : Lexing Unit := do
  modify (allowKey true)
  dropCandidate
  let lexer ← get
  let (text, behind) ← blockScalar lexer.indent lexer.spot
  modify fun lexer => push (.scalar (Text.codePoints text) false) (moveTo behind lexer)

/-- A plain scalar. If it ends with a line, a key may follow. -/
def plain : Lexing Unit := do
  beginNode
  modify fun lexer =>
    let steps := lexer.spot.rest.length + 1
    let (text, behind, lineEnded) :=
      plainRest (!lexer.isInBlock) (lexer.indent + 1) steps [] false lexer.spot
    push (.scalar (Text.codePoints text) true) (allowKey lineEnded (moveTo behind lexer))

def beginsPlain (inBlock : Bool) (c : Char) (spot : Spot) : Bool :=
  !(isBlankOrBreak c || "-?:,[]\x7b\x7d#&*!|>'\"%@\x60".toList.contains c)
    || (!spot.isBeforeOrEnd isBlankOrBreak && (c = '-' || (inBlock && (c = '?' || c = ':'))))

def tokenAt (c : Char) : Lexing Unit := do
  let lexer ← get
  let spot := lexer.spot
  let isFirst := spot.column = 0
  let isSeparate := spot.isBeforeOrEnd isBlankOrBreak
  if c = '%' && isFirst then do leaveDocument; directive
  else if isFirst && spot.isAtMark '-' then do leaveDocument; take 3 .documentStart
  else if isFirst && spot.isAtMark '.' then do leaveDocument; take 3 .documentEnd
  else if c = '[' then openFlow .flowSequenceStart
  else if c = '\x7b' then openFlow .flowMappingStart
  else if c = ']' then closeFlow .flowSequenceEnd
  else if c = '\x7d' then closeFlow .flowMappingEnd
  else if c = ',' then flowEntry
  else if c = '-' && isSeparate then blockEntry
  else if c = '?' && (!lexer.isInBlock || isSeparate) then explicitKey
  else if c = ':' && (!lexer.isInBlock || isSeparate) then value
  else if c = '*' then reference .alias
  else if c = '&' then reference .anchor
  else if c = '!' then do beginNode; let token ← tag; modify (push token)
  else if (c = '|' || c = '>') && lexer.isInBlock then block
  else if c = '\'' || c = '"' then quoted
  else if beginsPlain lexer.isInBlock c spot then plain
  else throw .malformed

def finish : Lexing Unit := leaveDocument

/-- Reads the next token, or closes everything at the end of the text; whether there was a token. -/
def readToken : Lexing Bool := do
  modify fun lexer => lexer.skipSpace (lexer.spot.rest.length + 1)
  dropStale
  modify fun lexer => unwind lexer.spot.column lexer
  match (← get).spot.peek with
  | none =>
    finish
    return false
  | some c =>
    tokenAt c
    return true

/-- The tokens up to the end of the text. Every token takes a character. -/
def readTokens : (steps : Nat) → Lexer → List Token
  | 0, lexer => lexer.settled ++ [.broken .malformed]
  | steps + 1, lexer =>
    match readToken.run lexer with
    | .ok (true, next) => readTokens steps next
    | .ok (false, last) => last.tokens.toList
    | .error fault => lexer.settled ++ [.broken fault]

def tokens (text : String) : List Token :=
  let chars := text.toList
  if chars.all isAllowed then readTokens (chars.length + 1) (.start chars)
  else [.broken .malformed]

end ArchDiagram.Yaml
