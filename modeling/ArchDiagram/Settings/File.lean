import ArchDiagram.Settings
import ArchDiagram.Yaml.Document

/-!
Reading settings: a mapping with three known keys, each of them optional, whose values are lists of
texts. Nothing at all stands for the standard settings. What a text is worth is up to a loader.
-/

namespace ArchDiagram.Settings

open ArchDiagram.Text (CodePoints)
open ArchDiagram.Yaml (Loader Mapping Scalar)

inductive Error
  | malformed (explanation? : Option String)
  | notMapping
  | unknownFields (names : List CodePoints)
  | notList (key : String)
  | notText (key : String) (index : Nat)
  | unknownRule (id : CodePoints)
deriving DecidableEq, Repr

def Error.message (label : String) : Error → String
  | malformed explanation? => "Invalid YAML in " ++ label ++ explanation?.elim "" (": " ++ ·)
  | notMapping => label ++ ": configuration must be a YAML mapping"
  | unknownFields names =>
    label ++ ": unknown field(s): " ++ ", ".intercalate (names.map Text.shown)
  | notList key => label ++ ": '" ++ key ++ "' must be a list"
  | notText key index => label ++ ": " ++ key ++ "[" ++ toString index ++ "] must be a string"
  | unknownRule id => label ++ ": unknown rule '" ++ Text.shown id ++ "' in 'disabled-rules'"

def knownKeys : List String := ["include", "exclude", "disabled-rules"]

/-- Why a text is no settings: an error to report, a document without a value, or a key that cannot
be shown. -/
inductive Failure
  | rejected (error : Error)
  | noValue (fault : Yaml.Fault)
  | keyTooLong
deriving DecidableEq, Repr

def keyText (key : Scalar) : Except Failure CodePoints :=
  match key.keyText? with
  | some text => .ok text
  | none => .error .keyTooLong

def unknownKeys (keys : List Scalar) : Except Failure (List CodePoints) :=
  let isKnown : Scalar → Bool
    | .text key => knownKeys.any (Text.codes · = key)
    | _ => false
  ((keys.filter (!isKnown ·)).mapM keyText).map (·.mergeSort Text.le)

def valueOf? {α : Type} (key : String) (entries : List (Scalar × α)) : Option α :=
  (entries.find? fun entry =>
    match entry.1 with
    | .text name => name = Text.codes key
    | _ => false).map (·.2)

def ruleOf (id : CodePoints) : Except Error Analysis.Rule :=
  match (Text.string? id).bind Analysis.Rule.ofId? with
  | some rule => .ok rule
  | none => .error (.unknownRule id)

section Load

variable (loader : Loader)

def textsFrom (key : String) : (index : Nat) → List loader.Value → Except Error (List CodePoints)
  | _, [] => .ok []
  | index, item :: rest =>
    match loader.look item with
    | .text value => (textsFrom key (index + 1) rest).map (value :: ·)
    | _ => .error (.notText key index)

/-- The list of texts that is the value of a key, or a standard one without the key. -/
def textList (key : String) (standard : List CodePoints)
    (entries : List (Scalar × loader.Value)) : Except Error (List CodePoints) :=
  match valueOf? key entries with
  | none => .ok standard
  | some value =>
    match loader.look value with
    | .list items => textsFrom loader key 0 items
    | _ => .error (.notList key)

def ofKnown (entries : List (Scalar × loader.Value)) : Except Error WideSettings := do
  let includePatterns ← textList loader "include" standard.wide.includePatterns entries
  let excludedNames ← textList loader "exclude" standard.wide.excludedNames entries
  let disabledRules ← (← textList loader "disabled-rules" [] entries).mapM ruleOf
  return ⟨includePatterns, excludedNames, disabledRules⟩

def ofEntries (entries : List (Scalar × loader.Value)) : Except Failure WideSettings := do
  let unknown ← unknownKeys (entries.map (·.1))
  if !unknown.isEmpty then
    throw (.rejected (.unknownFields unknown))
  (ofKnown loader entries).mapError .rejected

def ofValue (value : loader.Value) : Except Failure WideSettings :=
  match loader.look value with
  | .scalar .null => .ok standard
  | .mapping mapping => ofEntries loader mapping.entries
  | _ => .error (.rejected .notMapping)

def read (text : String) : Except Failure WideSettings :=
  match loader.load text with
  | .error (.malformed explanation?) => .error (.rejected (.malformed explanation?))
  | .error fault => .error (.noValue fault)
  | .ok value => ofValue loader value

end Load

def ofText (text : String) : Except Failure Settings :=
  (read .standard text).map (·.map Text.shown)

end ArchDiagram.Settings
