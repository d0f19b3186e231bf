import ArchDiagram.Command
import ArchDiagram.Text.Digit
import ArchDiagram.Text.Line
import ArchDiagram.Text.Quoted

/-!
The words of a command line. A word that begins with a hyphen is an option, unless it looks like a
negative number or holds a blank. Long options may be shortened as long as only one of them begins
so, and take a value behind an equals sign; the letters behind a single hyphen are all switches.
-/

namespace ArchDiagram.Command

inductive Switch
  | help
  | verbose
deriving DecidableEq, Repr

inductive Setting
  | config
  | indent
deriving DecidableEq, Repr

def Switch.letter : Switch → Char
  | help => 'h'
  | verbose => 'v'

def Switch.name : Switch → String
  | help => "--help"
  | verbose => "--verbose"

def Switch.label (switch : Switch) : String :=
  String.ofList ['-', switch.letter, '/'] ++ switch.name

def Setting.name : Setting → String
  | config => "--config"
  | indent => "--indent"

inductive Flag
  | ofSwitch (switch : Switch)
  | ofSetting (setting : Setting)
deriving DecidableEq, Repr

def Flag.name : Flag → String
  | ofSwitch switch => switch.name
  | ofSetting setting => setting.name

def Scope.switches : Scope → List Switch
  | program => [.help, .verbose]
  | _ => [.help]

def Scope.settings : Scope → List Setting
  | check => [.config]
  | dump => [.indent]
  | _ => []

def Scope.flags (scope : Scope) : List Flag :=
  scope.switches.map .ofSwitch ++ scope.settings.map .ofSetting

inductive Misuse
  | unknownCommand (word : String)
  | noFile
  | noValue (setting : Setting)
  | notInteger (setting : Setting) (text : String)
  | ignoredValue (switch : Switch) (text : String)
  | ambiguous (word : String) (flags : List Flag)
  | unrecognized (words : List String)
deriving DecidableEq, Repr

def Misuse.message : Misuse → String
  | unknownCommand word =>
    "argument COMMAND: invalid choice: " ++ Text.quoted word ++ " (choose from "
      ++ ", ".intercalate (Scope.commands.map fun command => Text.quoted command.word) ++ ")"
  | noFile => "the following arguments are required: file"
  | noValue setting => "argument " ++ setting.name ++ ": expected one argument"
  | notInteger setting text =>
    "argument " ++ setting.name ++ ": invalid int value: " ++ Text.quoted text
  | ignoredValue switch text =>
    "argument " ++ switch.label ++ ": ignored explicit argument " ++ Text.quoted text
  | ambiguous word flags =>
    "ambiguous option: " ++ word ++ " could match " ++ ", ".intercalate (flags.map (·.name))
  | unrecognized words => "unrecognized arguments: " ++ " ".intercalate words

inductive Word
  | operand
  | unknown
  | switches (switches : List Switch)
  | setting (setting : Setting) (value? : Option String)
  | misuse (misuse : Misuse)
  | ambiguous (flags : List Flag)
deriving DecidableEq, Repr

namespace Word

/-- The letters behind a switch, which are switches too: no value can be attached to one. -/
def ofLetters (scope : Scope) (done : List Switch) (switch : Switch) : List Char → Word
  | [] => .switches (done ++ [switch])
  | c :: rest =>
    match scope.switches.find? (·.letter = c) with
    | some next => ofLetters scope (done ++ [switch]) next rest
    | none => .misuse (.ignoredValue switch (String.ofList (c :: rest)))

/-- What stands behind the first switch of a word. An equals sign in front of letters does not
count. -/
def behindSwitch (scope : Scope) (switch : Switch) : List Char → Word
  | ['='] => .misuse (.ignoredValue switch "")
  | '=' :: letters => ofLetters scope [] switch letters
  | letters => ofLetters scope [] switch letters

def cutValue (cs : List Char) : String × Option String :=
  let behind := cs.dropWhile (· ≠ '=')
  (String.ofList (cs.takeWhile (· ≠ '=')),
    if behind.isEmpty then none else some (String.ofList behind.tail))

def ofFlag : Flag → (value? : Option String) → Word
  | .ofSwitch switch, none => .switches [switch]
  | .ofSwitch switch, some value => .misuse (.ignoredValue switch value)
  | .ofSetting own, value? => .setting own value?

/-- Whether a text is a hyphen with digits behind it, and perhaps a point before the last ones. A
line feed at the end does not count. -/
def isNegativeNumber (cs : List Char) : Bool :=
  let isDigit (c : Char) : Bool := (Text.digit? c).isSome
  match Text.dropLineFeed cs with
  | '-' :: number =>
    match number.dropWhile isDigit with
    | [] => !number.isEmpty
    | '.' :: fraction => !fraction.isEmpty && fraction.all isDigit
    | _ => false
  | _ => false

def ofHyphened (cs : List Char) : Word :=
  if isNegativeNumber cs ∨ ' ' ∈ cs then .operand else .unknown

def ofLong (scope : Scope) (cs : List Char) : Word :=
  let (name, value?) := cutValue cs
  match scope.flags.filter (·.name.startsWith name) with
  | [] => ofHyphened cs
  | [flag] => ofFlag flag value?
  | flags => .ambiguous flags

def ofText (scope : Scope) (text : String) : Word :=
  match text.toList with
  | '-' :: '-' :: rest => ofLong scope ('-' :: '-' :: rest)
  | '-' :: c :: rest =>
    match scope.switches.find? (·.letter = c) with
    | some switch => behindSwitch scope switch rest
    | none => ofHyphened ('-' :: c :: rest)
  | _ => .operand

end Word

end ArchDiagram.Command
