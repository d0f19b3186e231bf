import ArchDiagram.Command.Run
import ArchDiagram.Check
import ArchDiagram.Model.Json

/-!
What the commands do. A command reads the files of a disk; the settings for a path are those given
on the command line, those of the nearest settings file above it, or the standard ones. Only a new
settings file is ever written.
-/

namespace ArchDiagram.Command

def answered {α : Type} (answer : Except Disk.Unusable α) : Run α := Run.orFail .unusable answer

section Settings

variable (environment : Environment)

def loadSettings (disk : Disk) (path : Path) : Run WideSettings :=
  match disk.readText path with
  | .error (.unusable .notFound) => .reject ("Config file not found: " ++ path.text)
  | .error (.unusable .nullCharacter) => .stop (.failure (.unusable ⟨.nullCharacter, path⟩))
  | .error (.unusable failure) => .reject ("Cannot read config file: " ++ failure.message path)
  | .error (.undecodable fault) => .stop (.failure (.undecodable fault))
  | .ok text => do
    .trace .settings ("Loading configuration from " ++ path.text)
    match Settings.read environment.loader text with
    | .error (.rejected error) => .reject (error.message path.text)
    | .error (.noValue fault) => .stop (.failure (.document fault))
    | .error .keyTooLong => .stop (.failure .keyTooLong)
    | .ok settings => return settings

def settingsFor (disk : Disk) (given? : Option Path) (path : Path) : Run WideSettings :=
  match given? with
  | some given => loadSettings environment disk given
  | none => do
    let directory := if ← answered (disk.isDirectory path) then path else path.parent
    match ← answered (Discovery.settingsFile? disk directory) with
    | some found => loadSettings environment disk found
    | none => do
      .trace .commands
        ("No " ++ Settings.fileName ++ " found for " ++ path.text ++ "; using defaults")
      return Settings.standard

end Settings

def unreadable (path : Path) : Disk.TextFailure → String
  | .unusable .notFound => "Source file not found: " ++ path.text
  | failure => "Cannot read source file " ++ path.text ++ ": " ++ failure.message path

def checkText (path : Path) (settings : WideSettings) (text : String) : Run Checked := do
  .trace .checking ("Checking " ++ path.text)
  let checked ← Run.orFail .source (ArchDiagram.check settings.disabledIds text)
  if 0 < checked.suppressed then
    .trace .checking
      ("Suppressed " ++ toString checked.suppressed ++ " semantic error(s) by disabled rules")
  return checked

def reportAll (path : Path) (checked : Checked) : Run Unit :=
  checked.messages.forM fun message => .report (path.text ++ ": " ++ message)

def sourceText (disk : Disk) (path : Path) : Run (Except String String) :=
  match disk.readText path with
  | .error (.unusable .nullCharacter) => .stop (.failure (.unusable ⟨.nullCharacter, path⟩))
  | .error failure => return .error (unreadable path failure)
  | .ok text => return .ok text

def checkFile (disk : Disk) (path : Path) (settings : WideSettings) : Run Nat := do
  match ← sourceText disk path with
  | .error reason =>
    .report ("Error: " ++ reason)
    return 1
  | .ok text =>
    let checked ← checkText path settings text
    reportAll path checked
    return checked.errorCount

def ofDiscovery : Discovery.Failure → Failure
  | .pattern fault => .pattern fault
  | .unusable fault => .unusable fault

/-- Goes on if the stack has room for following the patterns below a directory. -/
def ensureFollows (environment : Environment) (disk : Disk) (settings : WideSettings)
    (directory : Path) : Run Unit :=
  if settings.includePatterns.all (environment.follows disk directory) then pure ()
  else .stop (.failure .tooDeep)

def sourcesAt (environment : Environment) (disk : Disk) (given? : Option Path) (path : Path) :
    Run (List (Path × WideSettings)) := do
  if !(← answered (disk.pathExists path)) then
    .reject ("path '" ++ path.text ++ "' does not exist.")
  else
    let settings ← settingsFor environment disk given? path
    let found ← Run.orFail ofDiscovery (Discovery.sources disk settings path)
    if !(← answered (disk.isFile path)) then
      ensureFollows environment disk settings path
      .trace .checking
        ("Discovered " ++ toString found.length ++ " source file(s) under " ++ path.text)
    return found.map fun source => (source, settings)

/-- The first entry of each path, apart from the paths that were seen already. -/
def firstOfEach (seen : List Path) : List (Path × WideSettings) → List (Path × WideSettings)
  | [] => []
  | entry :: rest =>
    if entry.1 ∈ seen then firstOfEach seen rest
    else entry :: firstOfEach (entry.1 :: seen) rest

/-- Checks the sources at paths. A source that is found twice is checked once, with the settings
with which it was found first. -/
def runCheck (environment : Environment) (disk : Disk) (paths : List Path)
    (given? : Option Path) : Run Nat := do
  -- All paths are looked up before anything is checked, so a bad path hides every result.
  let found ← paths.mapM (sourcesAt environment disk given?)
  let sources := firstOfEach [] found.flatten
  if sources.isEmpty then
    .result "No .isx files found."
    return 0
  .result ("Checking " ++ toString sources.length ++ " file(s)...")
  let counts ← sources.mapM fun (path, settings) => checkFile disk path settings
  let errors := counts.foldl (· + ·) 0
  if errors = 0 then
    .result "No issues found."
    return 0
  .report ("Found " ++ toString errors ++ " error(s).")
  return 1

def modelText (indent : Int) (model : Model) : Run String :=
  if indent < 0 then .stop (.failure .indentNegative)
  else if 0x10000000000000000 ≤ indent then .stop (.failure .indentTooLarge)
  else return model.json.layout indent.toNat

def runDump (environment : Environment) (disk : Disk) (path : Path) (indent : Int) :
    Run Nat := do
  let settings ← settingsFor environment disk none path
  match ← sourceText disk path with
  | .error reason => .reject reason
  | .ok text =>
    let checked ← checkText path settings text
    reportAll path checked
    .result (← modelText indent checked.model)
    return if checked.hasErrors then 1 else 0

def runInit (disk : Disk) (directory : Path) : Run Disk := do
  let directory ← answered (disk.resolve directory)
  let path := directory.child Settings.fileName
  if !(← answered (disk.pathExists directory)) then
    .reject ("directory '" ++ directory.text ++ "' does not exist.")
  else if ← answered (disk.pathExists path) then
    .reject ("configuration already exists at '" ++ path.text ++ "'.")
  else
    let bytes := Settings.standardText.toUTF8.toList
    let written ← answered (disk.create path bytes)
    .result ("Initialized Isomorph project at '" ++ path.text ++ "'.")
    return written

def run (environment : Environment) (disk : Disk) : Command → Run (Disk × Nat)
  | init directory => do
    return (← runInit disk directory, 0)
  | check paths given? => do
    return (disk, ← runCheck environment disk paths given?)
  | dump path indent => do
    return (disk, ← runDump environment disk path indent)

/-- What a command line leaves behind: the disk, the text of the results, the text of the reports,
and the exit status unless there was a failure. -/
structure Outcome where
  disk : Disk
  results : String
  reports : String
  status : Except Failure Nat

def joinLines (lines : List String) : String := String.join (lines.map (· ++ "\n"))

def resultText (lines : List Line) : String :=
  joinLines (lines.filterMap fun
    | .result text => some text
    | _ => none)

def reportText (verbose : Bool) (lines : List Line) : String :=
  joinLines (lines.filterMap fun
    | .result _ => none
    | .report text => some text
    | .trace part text => if verbose then some ("DEBUG:" ++ part.name ++ ":" ++ text) else none)

def Run.outcome (disk : Disk) (verbose : Bool) (run : Run (Disk × Nat)) : Outcome :=
  { disk := match run.value with
      | .ok (written, _) => written
      | .error _ => disk
    results := resultText run.lines
    reports := reportText verbose run.lines
    status := match run.value with
      | .ok (_, status) => .ok status
      | .error (.exit status) => .ok status
      | .error (.failure failure) => .error failure }

def performIn (environment : Environment) (disk : Disk) (words : List String) : Outcome :=
  match read words with
  | .error (.help scope) => ⟨disk, joinLines scope.help, "", .ok 0⟩
  | .error (.misuse scope misuse) => ⟨disk, "", joinLines (misuse.lines scope), .ok 2⟩
  | .ok ⟨_, none⟩ => ⟨disk, joinLines Scope.program.help, "", .ok 0⟩
  | .ok ⟨verbose, some command⟩ => (run environment disk command).outcome disk verbose

def perform (disk : Disk) (words : List String) : Outcome := performIn .standard disk words

end ArchDiagram.Command
