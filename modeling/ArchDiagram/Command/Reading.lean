import ArchDiagram.Command.Word
import ArchDiagram.Decimal.Loose

/-!
Reading a command line. The operands of a command stand together: once an option follows them, no
further ones are taken. Two hyphens turn all words behind them into operands. Words that nothing
takes are collected and make the whole line a misuse, unless something else was wrong before.
-/

namespace ArchDiagram.Command

inductive Refusal
  | help (scope : Scope)
  | misuse (scope : Scope) (misuse : Misuse)
deriving DecidableEq, Repr

def Misuse.lines (scope : Scope) (misuse : Misuse) : List String :=
  [scope.usage, scope.title ++ ": error: " ++ misuse.message]

/-- Whether operands can still be taken: there were none yet, the last word was one, or the place
where they stand has ended. -/
inductive Operands
  | awaited
  | going
  | ended
deriving DecidableEq, Repr

structure Reading where
  state : Operands := .awaited
  operands : List String := []
  config? : Option String := none
  indent : Int := 2
  leftover : List String := []
deriving DecidableEq, Repr

def Scope.takesMore (operands : List String) : Scope → Bool
  | check => true
  | _ => operands.isEmpty

namespace Reading

def addOperand (scope : Scope) (reading : Reading) (text : String) : Reading :=
  if reading.state ≠ .ended ∧ scope.takesMore reading.operands then
    { reading with state := .going, operands := reading.operands ++ [text] }
  else { reading with state := .ended, leftover := reading.leftover ++ [text] }

def addAll (scope : Scope) (reading : Reading) (rest : List String) : Reading :=
  -- Where no operands are taken any more, the two hyphens themselves are left over too.
  if reading.state = .ended then { reading with leftover := reading.leftover ++ "--" :: rest }
  else rest.foldl (addOperand scope) reading

def endOperands (reading : Reading) : Reading :=
  if reading.state = .going then { reading with state := .ended } else reading

def leave (reading : Reading) (text : String) : Reading :=
  { reading with leftover := reading.leftover ++ [text] }

def set (reading : Reading) (text : String) : Setting → Except Misuse Reading
  | .config => .ok { reading with config? := some text }
  | .indent =>
    match Decimal.readInteger text.toList with
    | .ok indent => .ok { reading with indent := indent }
    | .error _ => .error (.notInteger .indent text)

def addWords (scope : Scope) (reading : Reading) : List String → Except Refusal Reading
  | [] => .ok reading
  | text :: rest =>
    if text = "--" then .ok (reading.addAll scope rest)
    else match Word.ofText scope text with
      | .operand => addWords scope (reading.addOperand scope text) rest
      | .unknown => addWords scope (reading.endOperands.leave text) rest
      | .switches _ => .error (.help scope)
      | .setting setting (some value) => do
        let reading ← (reading.endOperands.set value setting).mapError (.misuse scope)
        addWords scope reading rest
      | .setting setting none =>
        match rest with
        | value :: more =>
          if value ≠ "--" ∧ Word.ofText scope value = .operand then do
            let reading ← (reading.endOperands.set value setting).mapError (.misuse scope)
            addWords scope reading more
          else .error (.misuse scope (.noValue setting))
        | [] => .error (.misuse scope (.noValue setting))
      | .misuse misuse => .error (.misuse scope misuse)
      | .ambiguous flags => .error (.misuse scope (.ambiguous text flags))

def command (reading : Reading) : Scope → Except Misuse (Option Command)
  | .program => .ok none
  | .init => .ok (some (.init (.ofText (reading.operands.head?.getD "."))))
  | .check =>
    let operands := if reading.operands.isEmpty then ["."] else reading.operands
    .ok (some (.check (operands.map .ofText) (reading.config?.map .ofText)))
  | .dump =>
    match reading.operands with
    | [] => .error .noFile
    | file :: _ => .ok (some (.dump (.ofText file) reading.indent))

end Reading

/-- Refuses words, the first ambiguous one of which is found before anything else is done. -/
def refuseAmbiguous (scope : Scope) (words : List String) : Except Refusal Unit :=
  let found := (words.takeWhile (· ≠ "--")).findSome? fun text =>
    match Word.ofText scope text with
    | .ambiguous flags => some (Misuse.ambiguous text flags)
    | _ => none
  match found with
  | some misuse => .error (.misuse scope misuse)
  | none => .ok ()

/-- The command that words behind its name give, and the words that are left over. -/
def readCommand (scope : Scope) (words : List String) :
    Except Refusal (Option Command × List String) := do
  -- Every word is looked at before any is taken, so an ambiguous one hides all other faults.
  refuseAmbiguous scope words
  let reading ← Reading.addWords scope {} words
  let command? ← (reading.command scope).mapError (.misuse scope)
  return (command?, reading.leftover)

def finish (verbose : Bool) (command? : Option Command) (leftover : List String) :
    Except Refusal Invocation :=
  if leftover.isEmpty then .ok ⟨verbose, command?⟩
  else .error (.misuse .program (.unrecognized leftover))

/-- Reads the words up to the name of a command, and behind it those of the command. -/
def readFrom (verbose : Bool) (leftover : List String) : List String → Except Refusal Invocation
  | [] => finish verbose none leftover
  | text :: rest =>
    if text = "--" then
      -- With words behind them, two hyphens stand where the name of a command is due.
      if rest.isEmpty then finish verbose none (leftover ++ ["--"])
      else .error (.misuse .program (.unknownCommand "--"))
    else match Word.ofText .program text with
      | .operand =>
        match Scope.commands.find? (·.word = text) with
        | some scope => do
          let (command?, more) ← readCommand scope rest
          finish verbose command? (leftover ++ more)
        | none => .error (.misuse .program (.unknownCommand text))
      | .unknown => readFrom verbose (leftover ++ [text]) rest
      | .switches switches =>
        if .help ∈ switches then .error (.help .program) else readFrom true leftover rest
      | .setting setting _ => .error (.misuse .program (.noValue setting))
      | .misuse misuse => .error (.misuse .program misuse)
      | .ambiguous flags => .error (.misuse .program (.ambiguous text flags))

def read (words : List String) : Except Refusal Invocation := do
  refuseAmbiguous .program words
  readFrom false [] words

end ArchDiagram.Command
