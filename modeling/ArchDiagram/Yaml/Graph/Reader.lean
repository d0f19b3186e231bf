import ArchDiagram.Yaml.Graph
import ArchDiagram.Yaml.Token

/-!
Reading tokens into a graph. A node that is left out is null, every node gets its type, and an
alias names an anchor that stands before it. Tokens are looked at in their order and only when they
are needed, so of a malformed document and a broken token the one that comes first is the fault.
-/

namespace ArchDiagram.Yaml

structure Reading where
  rest : List Token
  graph : Graph
  anchors : List (String × NodeId)

abbrev Reader := StateT Reading (Except Fault)

namespace Reader

def peek : Reader (Option Token) := do
  match (← get).rest with
  | .broken fault :: _ => throw fault
  | rest => return rest.head?

def advance : Reader Unit := modify fun reading => { reading with rest := reading.rest.tail }

def isAtAny (tokens : List Token) : Reader Bool := return (← peek).any (· ∈ tokens)

def accept (token : Token) : Reader Bool := do
  let found ← isAtAny [token]
  if found then
    advance
  return found

def expect (token : Token) : Reader Unit := do
  if !(← accept token) then
    throw .malformed

/-- One more than the number of tokens that are left. No loop takes more steps. -/
def stepLimit : Reader Nat := return (← get).rest.length + 1

def add (anchor : Option String) (node : Node) : Reader NodeId := do
  let reading ← get
  let id := reading.graph.size
  if anchor.any fun name => (reading.anchors.lookup name).isSome then
    throw .malformed
  set { reading with
    graph := reading.graph.push node
    anchors := anchor.toList.map (·, id) ++ reading.anchors }
  return id

def anchored (name : String) : Reader NodeId := do
  match (← get).anchors.lookup name with
  | some id => return id
  | none => throw .malformed

def fill (id : NodeId) (content : Content) : Reader Unit :=
  modify fun reading => { reading with graph := reading.graph.setContent id content }

abbrev Handles := List (String × String)

def standardHandles : Handles := [("!", "!"), ("!!", Tag.standardPrefix)]

def tagName (handles : Handles) : (handle : Option String) → (suffix : String) → Reader String
  | none, suffix => return suffix
  | some handle, suffix =>
    match handles.lookup handle with
    | some front => return front ++ suffix
    | none => throw .malformed

def anchor? : Reader (Option String) := do
  match ← peek with
  | some (.anchor name) =>
    advance
    return some name
  | _ => return none

def tag? : Reader (Option (Option String × String)) := do
  match ← peek with
  | some (.tag handle suffix) =>
    advance
    return some (handle, suffix)
  | _ => return none

/-- The anchor and the full name of the tag in front of a node, which may stand in either order. -/
def properties (handles : Handles) : Reader (Option String × Option String) := do
  let first? ← anchor?
  let tag? ← tag?
  let anchor? ← if first?.isNone && tag?.isSome then anchor? else pure first?
  return (anchor?, ← tag?.mapM fun (handle, suffix) => tagName handles handle suffix)

/-- The type of a scalar. The tag without a name leaves it to the text. -/
def scalarTag (name? : Option String) (isPlain : Bool) (text : Text.CodePoints) : Tag :=
  match name? with
  | some "!" => .ofPlain text
  | some name => .ofName name
  | none => if isPlain then .ofPlain text else .text

def collectionTag (name? : Option String) (usual : Tag) : Tag :=
  match name? with
  | none | some "!" => usual
  | some name => .ofName name

def orEmpty (ends : List Token) (read : Reader NodeId) : Reader NodeId := do
  if ← isAtAny ends then add none .empty else read

def valueOrEmpty (ends : List Token) (read : Reader NodeId) : Reader NodeId := do
  if ← accept .value then orEmpty ends read else add none .empty

def entries (ends : List Token) (read : Reader NodeId) : (steps : Nat) → Reader (List NodeId)
  | 0 => throw .malformed
  | steps + 1 => do
    if ← accept .blockEntry then
      let item ← orEmpty ends read
      return item :: (← entries ends read steps)
    else
      return []

def blockPairs (read : Reader NodeId) : (steps : Nat) → Reader (List Pair)
  | 0 => throw .malformed
  | steps + 1 => do
    let ends := [.key, .value, .blockEnd]
    if ← accept .key then
      let key ← orEmpty ends read
      let value ← valueOrEmpty ends read
      return (key, value) :: (← blockPairs read steps)
    else
      return []

/-- Passes the comma in front of an entry that is not the first. -/
def passComma (isFirst : Bool) : Reader Unit := do
  if !isFirst then
    expect .flowEntry

/-- The pair of a mapping that stands in a flow sequence without braces, behind its mark. It is over
after one value. -/
def singlePair (read : Reader NodeId) : Reader NodeId := do
  let id ← add none ⟨.mapping, .mapping []⟩
  advance
  let key ← orEmpty [.value, .flowEntry, .flowSequenceEnd] read
  let value ← valueOrEmpty [.flowEntry, .flowSequenceEnd] read
  fill id (.mapping [(key, value)])
  return id

def flowItems (read : Reader NodeId) : (steps : Nat) → (isFirst : Bool) → Reader (List NodeId)
  | 0, _ => throw .malformed
  | steps + 1, isFirst => do
    if ← accept .flowSequenceEnd then
      return []
    passComma isFirst
    if ← accept .flowSequenceEnd then
      return []
    let item ← if ← isAtAny [.key] then singlePair read else read
    return item :: (← flowItems read steps false)

def flowPair (read : Reader NodeId) : Reader Pair := do
  if ← accept .key then
    let key ← orEmpty [.value, .flowEntry, .flowMappingEnd] read
    return (key, ← valueOrEmpty [.flowEntry, .flowMappingEnd] read)
  else
    let key ← read
    return (key, ← add none .empty)

def flowPairs (read : Reader NodeId) : (steps : Nat) → (isFirst : Bool) → Reader (List Pair)
  | 0, _ => throw .malformed
  | steps + 1, isFirst => do
    if ← accept .flowMappingEnd then
      return []
    passComma isFirst
    if ← accept .flowMappingEnd then
      return []
    let pair ← flowPair read
    return pair :: (← flowPairs read steps false)

/-- Where a node stands. A sequence that is a value may have its hyphens in the column of its key,
without a block of its own. -/
inductive Context
  | flow
  | block
  | blockValue
deriving DecidableEq, Repr

def collection (anchor? : Option String) (empty : Node) (read : Reader Content) :
    Reader NodeId := do
  let id ← add anchor? empty
  fill id (← read)
  return id

/-- The number of levels of nodes that the stack has room for. Reading a level takes two calls, and
a stack holds a thousand. -/
def levelLimit : Nat := 490

def node (handles : Handles) : (levels : Nat) → Context → Reader NodeId
  | 0, _ => throw .endless
  | levels + 1, context => do
    if let some (.alias name) ← peek then
      advance
      return ← anchored name
    let (anchor?, name?) ← properties handles
    let steps ← stepLimit
    let sequence := collection anchor? ⟨collectionTag name? .sequence, .sequence []⟩
    let mapping := collection anchor? ⟨collectionTag name? .mapping, .mapping []⟩
    match context, ← peek with
    | _, some (.scalar text isPlain) =>
      advance
      add anchor? ⟨scalarTag name? isPlain text, .scalar text⟩
    | _, some .flowSequenceStart => sequence do
      advance
      return .sequence (← flowItems (node handles levels .flow) steps true)
    | _, some .flowMappingStart => mapping do
      advance
      return .mapping (← flowPairs (node handles levels .flow) steps true)
    | .blockValue, some .blockEntry => sequence do
      let ends := [.blockEntry, .key, .value, .blockEnd]
      return .sequence (← entries ends (node handles levels .block) steps)
    | .block, some .blockSequenceStart | .blockValue, some .blockSequenceStart => sequence do
      advance
      let items ← entries [.blockEntry, .blockEnd] (node handles levels .block) steps
      expect .blockEnd
      return .sequence items
    | .block, some .blockMappingStart | .blockValue, some .blockMappingStart => mapping do
      advance
      let pairs ← blockPairs (node handles levels .blockValue) steps
      expect .blockEnd
      return .mapping pairs
    | _, _ =>
      -- Properties with nothing behind them belong to an empty scalar.
      if anchor?.isSome || name?.isSome then
        add anchor? ⟨scalarTag name? true [], .scalar []⟩
      else
        throw .malformed

/-- The directives in front of a document, and the handles that they and the standard declare. -/
def directives : (steps : Nat) → (declared : Handles) → (hasVersion : Bool) → Reader Handles
  | 0, _, _ => throw .malformed
  | steps + 1, declared, hasVersion => do
    match ← peek with
    | some (.directive (.version major)) =>
      advance
      if hasVersion || major ≠ 1 then
        throw .malformed
      directives steps declared true
    | some (.directive (.tagPrefix handle text)) =>
      advance
      if (declared.lookup handle).isSome then
        throw .malformed
      directives steps ((handle, text) :: declared) hasVersion
    | some (.directive .other) =>
      advance
      directives steps declared hasVersion
    | _ => return declared ++ standardHandles

def endsDocument : Option Token → Bool
  | none | some .documentStart | some .documentEnd | some (.directive _) => true
  | _ => false

def explicitDocument : Reader NodeId := do
  let handles ← directives (← stepLimit) [] false
  expect .documentStart
  if endsDocument (← peek) then add none .empty else node handles levelLimit .block

def passEnds : (steps : Nat) → Reader Unit
  | 0 => throw .malformed
  | steps + 1 => do
    if ← accept .documentEnd then
      passEnds steps

def document : Reader (Option NodeId) := do
  match ← peek with
  | none => return none
  | some token =>
    let isExplicit := endsDocument (some token) && token ≠ .documentEnd
    let id ← if isExplicit then explicitDocument else node standardHandles levelLimit .block
    passEnds (← stepLimit)
    if (← peek).isSome then
      discard (directives (← stepLimit) [] false)
      throw .malformed
    return some id

end Reader

def Graph.ofTokens? (tokens : List Token) : Except Fault (Option NodeId × Graph) :=
  (Reader.document.run ⟨tokens, ⟨#[]⟩, []⟩).map fun (root?, reading) => (root?, reading.graph)

end ArchDiagram.Yaml
