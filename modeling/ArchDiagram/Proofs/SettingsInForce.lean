import ArchDiagram.Proofs.Runs
import ArchDiagram.Proofs.SettingsReading

/-!
The settings that are in force for a path: those that are given, or those of the nearest settings
file in the directory at the path, or beside the file at it, or above. They are the standard ones if
there is no such file, and a path is refused if its settings are.
-/

namespace ArchDiagram.Command

section Nearest

variable (environment : Environment) (disk : Disk)

def settingsIn (root : String) (parts : List String) : Path :=
  Path.child ⟨root, parts⟩ Settings.fileName

/-- The nearest directory with a settings file, among a directory and those above it. -/
structure NearestAt (directory : Path) (parts : List String) : Prop where
  above : parts <+: directory.parts
  isFile : disk.isFile (settingsIn directory.root parts) = .ok true
  closer : ∀ closer, parts <+: closer → closer <+: directory.parts → closer ≠ parts →
    disk.isFile (settingsIn directory.root closer) = .ok false

/-- The settings file in a directory, or else in the nearest directory above it that has one. -/
def Nearest (directory : Path) : Option Path → Prop
  | none => ∀ parts, parts <+: directory.parts →
      disk.isFile (settingsIn directory.root parts) = .ok false
  | some file => ∃ parts, NearestAt disk directory parts ∧
      file = settingsIn directory.root parts

/-- The settings file that is in force for a path, if there is one. -/
inductive Governs : (given? : Option Path) → Path → Option Path → Prop
  | given {file path : Path} : Governs (some file) path (some file)
  | atDirectory {path directory : Path} {found : Option Path} :
      disk.isDirectory path = .ok true → disk.resolve path = .ok directory →
      Nearest disk directory found → Governs none path found
  | besideFile {path directory : Path} {found : Option Path} :
      disk.isDirectory path = .ok false → disk.resolve path.parent = .ok directory →
      Nearest disk directory found → Governs none path found

/-- The settings that a file spells out: those that its document describes. -/
def Spells (file : Path) (settings : WideSettings) : Prop :=
  ∃ text document, disk.readText file = .ok text ∧
    environment.loader.load text = .ok document ∧
    Settings.Documented environment.loader document ∧
    Settings.Describes environment.loader document settings

/-- Why a settings file is rejected: it cannot be read, or it has no document, or the document has
another shape. -/
inductive Rejects (file : Path) : String → Prop
  | missing : disk.readText file = .error (.unusable .notFound) →
      Rejects file ("Config file not found: " ++ file.text)
  | unusable {failure : Disk.Failure} : disk.readText file = .error (.unusable failure) →
      failure ≠ .notFound → failure ≠ .nullCharacter →
      Rejects file ("Cannot read config file: " ++ failure.message file)
  | malformed {text : String} {explanation? : Option String} : disk.readText file = .ok text →
      environment.loader.load text = .error (.malformed explanation?) →
      Rejects file ("Invalid YAML in " ++ file.text ++ explanation?.elim "" (": " ++ ·))
  | misshapen {text : String} {document : environment.loader.Value} {error : Settings.Error} :
      disk.readText file = .ok text → environment.loader.load text = .ok document →
      ¬ Settings.HasLongKey environment.loader document →
      Settings.FirstBreach (Settings.breaches environment.loader document) error →
      Rejects file (error.message file.text)

variable (given? : Option Path) (path : Path)

/-- The settings that are in force for a path. -/
inductive InForce : WideSettings → Prop
  | spelled {file : Path} {settings : WideSettings} : Governs disk given? path (some file) →
      Spells environment disk file settings → InForce settings
  | standard : Governs disk given? path none → InForce Settings.standard

/-- Why a path is refused: nothing is at it, or the settings file in force for it is rejected. -/
inductive Refused : String → Prop
  | missing : disk.pathExists path = .ok false →
      Refused ("path '" ++ path.text ++ "' does not exist.")
  | rejected {file : Path} {reason : String} : disk.pathExists path = .ok true →
      Governs disk given? path (some file) → Rejects environment disk file reason → Refused reason

end Nearest

-- What is in force is told by the environment and the disk.

section Unique

variable {environment : Environment} {disk : Disk} {given? : Option Path} {path : Path}

theorem NearestAt.eq_of_prefix {directory : Path} {parts other : List String}
    (nearest : NearestAt disk directory parts) (again : NearestAt disk directory other)
    (below : parts <+: other) : parts = other := by
  by_contra apart
  have isFile := again.isFile
  rw [nearest.closer other below again.above (Ne.symm apart)] at isFile
  cases isFile

theorem NearestAt.unique {directory : Path} {parts other : List String}
    (nearest : NearestAt disk directory parts) (again : NearestAt disk directory other) :
    parts = other := by
  rcases List.prefix_or_prefix_of_prefix nearest.above again.above with below | below
  · exact nearest.eq_of_prefix again below
  · exact (again.eq_of_prefix nearest below).symm

theorem Nearest.unique {directory : Path} {found other : Option Path}
    (nearest : Nearest disk directory found) (again : Nearest disk directory other) :
    found = other := by
  -- If one is nearest, then not every place is without a file.
  have absent {file : Path} (some_ : Nearest disk directory (some file))
      (none_ : Nearest disk directory none) : False := by
    obtain ⟨parts, there, -⟩ := some_
    have isFile := there.isFile
    rw [none_ parts there.above] at isFile
    cases isFile
  cases found with
  | none =>
    cases other with
    | none => rfl
    | some file => exact (absent again nearest).elim
  | some file =>
    cases other with
    | none => exact (absent nearest again).elim
    | some file' =>
      obtain ⟨parts, here, rfl⟩ := nearest
      obtain ⟨parts', there, rfl⟩ := again
      rw [here.unique there]

theorem Governs.unique {found other : Option Path} (governs : Governs disk given? path found)
    (again : Governs disk given? path other) : found = other := by
  have ok {ε α : Type} {answer : Except ε α} {x y : α} (first : answer = .ok x)
      (second : answer = .ok y) : x = y := Except.ok.inj (first.symm.trans second)
  cases governs with
  | given =>
    cases again with
    | given => rfl
  | atDirectory isDirectory resolved nearest =>
    cases again with
    | atDirectory _ resolved' nearest' =>
      cases ok resolved resolved'
      exact nearest.unique nearest'
    | besideFile isFile => cases ok isDirectory isFile
  | besideFile isFile resolved nearest =>
    cases again with
    | atDirectory isDirectory => cases ok isDirectory isFile
    | besideFile _ resolved' nearest' =>
      cases ok resolved resolved'
      exact nearest.unique nearest'

theorem Spells.unique {file : Path} {settings other : WideSettings}
    (spells : Spells environment disk file settings)
    (again : Spells environment disk file other) : settings = other := by
  obtain ⟨text, document, readable, loaded, -, describes⟩ := spells
  obtain ⟨text', document', readable', loaded', -, describes'⟩ := again
  cases readable.symm.trans readable'
  cases loaded.symm.trans loaded'
  exact describes.unique describes'

theorem Spells.not_rejects {file : Path} {settings : WideSettings} {reason : String}
    (spells : Spells environment disk file settings) : ¬ Rejects environment disk file reason := by
  obtain ⟨text, document, readable, loaded, documented, -⟩ := spells
  intro rejects
  cases rejects with
  | missing failed => cases readable.symm.trans failed
  | unusable failed => cases readable.symm.trans failed
  | malformed readable' failed =>
    cases readable.symm.trans readable'
    cases loaded.symm.trans failed
  | misshapen readable' loaded' _ broken =>
    cases readable.symm.trans readable'
    cases loaded.symm.trans loaded'
    exact broken.not_clean documented.clean

theorem InForce.unique {settings other : WideSettings}
    (inForce : InForce environment disk given? path settings)
    (again : InForce environment disk given? path other) : settings = other := by
  cases inForce with
  | spelled governs spells =>
    cases again with
    | spelled governs' spells' =>
      cases governs.unique governs'
      exact spells.unique spells'
    | standard governs' => cases governs.unique governs'
  | standard governs =>
    cases again with
    | spelled governs' => cases governs.unique governs'
    | standard => rfl

theorem InForce.not_refused {settings : WideSettings} {reason : String}
    (inForce : InForce environment disk given? path settings)
    (exists_ : disk.pathExists path = .ok true) :
    ¬ Refused environment disk given? path reason := by
  intro refused
  cases refused with
  | missing missing => cases exists_.symm.trans missing
  | rejected _ governs rejects =>
    cases inForce with
    | spelled governs' spells =>
      cases governs.unique governs'
      exact spells.not_rejects rejects
    | standard governs' => cases governs.unique governs'

end Unique

theorem findM?_of_ok {α ε : Type} {p : α → Except ε Bool} {xs : List α} {found : Option α}
    (answer : xs.findM? p = .ok found) :
    (found = none ∧ ∀ x ∈ xs, p x = .ok false) ∨
    ∃ before x after, found = some x ∧ xs = before ++ x :: after ∧ p x = .ok true ∧
      ∀ y ∈ before, p y = .ok false := by
  -- Induction on the list: every question before the answer was answered with no.
  induction xs with
  | nil => exact .inl ⟨(Except.ok.inj answer).symm, nofun⟩
  | cons x rest ih =>
    rw [List.findM?] at answer
    cases here : p x with
    | error =>
      rw [here] at answer
      cases answer
    | ok holds =>
      rw [here] at answer
      cases holds with
      | true => exact .inr ⟨[], x, rest, (Except.ok.inj answer).symm, rfl, here, nofun⟩
      | false =>
        rcases ih answer with ⟨none_, others⟩ | ⟨before, y, after, found_, rfl, holds, others⟩
        · exact .inl ⟨none_, List.forall_mem_cons.2 ⟨here, others⟩⟩
        · exact .inr ⟨x :: before, y, after, found_, rfl, holds,
            List.forall_mem_cons.2 ⟨here, others⟩⟩

section Looks

variable (environment : Environment) (disk : Disk)

/-- The places that are looked at, from the directory upwards: each is that of a prefix. -/
theorem getElem?_candidates (directory : Path) {length : Nat}
    (short : length ≤ directory.parts.length) :
    (directory.upwards.map (·.child Settings.fileName))[directory.parts.length - length]? =
      some (settingsIn directory.root (directory.parts.take length)) := by
  have number : directory.parts.length - (directory.parts.length - length) = length :=
    Nat.sub_sub_self short
  have inside : directory.parts.length - length < directory.parts.length + 1 := by omega
  rw [Path.upwards, List.map_map, List.getElem?_map, List.getElem?_range inside]
  simp only [Option.map_some, Function.comp_apply, number]
  rfl

theorem mem_candidates {directory : Path} {parts : List String}
    (above : parts <+: directory.parts) :
    (directory.upwards.map (·.child Settings.fileName))[directory.parts.length - parts.length]? =
      some (settingsIn directory.root parts) := by
  rw [getElem?_candidates directory above.length_le, ← List.prefix_iff_eq_take.1 above]

theorem candidates_split {directory file : Path} {before after : List Path}
    (split : directory.upwards.map (·.child Settings.fileName) = before ++ file :: after) :
    ∃ parts, parts <+: directory.parts ∧ file = settingsIn directory.root parts ∧
      ∀ closer, parts <+: closer → closer <+: directory.parts → closer ≠ parts →
        settingsIn directory.root closer ∈ before := by
  -- Every place that is looked at is in a directory above, and those of closer directories have
  -- been looked at before.
  have here : (directory.upwards.map (·.child Settings.fileName))[before.length]? = some file := by
    rw [split, List.getElem?_append_right (Nat.le_refl _), Nat.sub_self]
    rfl
  have inside : before.length ≤ directory.parts.length := by
    have bound := (List.getElem?_eq_some_iff.1 here).1
    rw [List.length_map, Path.upwards, List.length_map, List.length_range] at bound
    omega
  have number : directory.parts.length - (directory.parts.length - before.length) =
      before.length := Nat.sub_sub_self inside
  have place := getElem?_candidates directory (Nat.sub_le directory.parts.length before.length)
  rw [number, here] at place
  obtain rfl := Option.some.inj place
  refine ⟨_, List.take_prefix _ _, rfl, fun closer below above apart => ?_⟩
  -- A closer directory has more components, so its place was looked at before.
  have longer : directory.parts.length - before.length < closer.length := by
    have shorter := below.length_le
    rw [List.length_take_of_le (Nat.sub_le ..)] at shorter
    refine Nat.lt_of_le_of_ne shorter fun same => apart (below.eq_of_length ?_).symm
    rwa [List.length_take_of_le (Nat.sub_le ..)]
  have earlier : directory.parts.length - closer.length < before.length := by
    have := above.length_le
    omega
  have seen := mem_candidates above
  rw [split, List.getElem?_append_left earlier] at seen
  exact List.mem_of_getElem? seen

theorem nearest_of_candidates {directory : Path} {found : Option Path}
    (answer : (directory.upwards.map (·.child Settings.fileName)).findM? disk.isFile = .ok found) :
    Nearest disk directory found := by
  rcases findM?_of_ok answer with ⟨rfl, none_⟩ | ⟨before, file, after, rfl, split, isFile, none_⟩
  · exact fun parts above => none_ _ (List.mem_of_getElem? (mem_candidates above))
  · obtain ⟨parts, above, rfl, sooner⟩ := candidates_split split
    exact ⟨parts, ⟨above, isFile, fun closer below within apart =>
      none_ _ (sooner closer below within apart)⟩, rfl⟩

theorem nearest_of_settingsFile? {directory : Path} {found : Option Path}
    (answer : Discovery.settingsFile? disk directory = .ok found) :
    ∃ resolved, disk.resolve directory = .ok resolved ∧ Nearest disk resolved found := by
  rw [Discovery.settingsFile?] at answer
  cases place : disk.resolve directory with
  | error =>
    rw [place] at answer
    cases answer
  | ok resolved =>
    rw [place] at answer
    exact ⟨resolved, rfl, nearest_of_candidates disk answer⟩

theorem looks_loadSettings (file : Path) :
    Looks (loadSettings environment disk file) (Spells environment disk file)
      (Rejects environment disk file) := by
  unfold loadSettings
  cases readable : disk.readText file with
  | error failure =>
    cases failure with
    | undecodable => exact .fail _
    | unusable failure =>
      cases failure with
      | notFound => exact .reject (.missing readable)
      | nullCharacter => exact .fail _
      | _ => exact .reject (.unusable readable nofun nofun)
  | ok text =>
    refine .trace_bind (by simp) ?_
    cases answer : Settings.read environment.loader text with
    | error failure =>
      cases failure with
      | rejected =>
        rcases Settings.read_eq_rejected_iff.1 answer with
          ⟨explanation?, failed, rfl⟩ | ⟨document, loaded, short, broken⟩
        · exact .reject (.malformed readable failed)
        · exact .reject (.misshapen readable loaded short broken)
      | noValue => exact .fail _
      | keyTooLong => exact .fail _
    | ok settings =>
      obtain ⟨document, loaded, documented, describes⟩ := Settings.read_eq_ok_iff.1 answer
      exact .pure ⟨text, document, readable, loaded, documented, describes⟩

/-- Why the settings of a path are refused. -/
def Misgoverned (given? : Option Path) (path : Path) (reason : String) : Prop :=
  ∃ file, Governs disk given? path (some file) ∧ Rejects environment disk file reason

theorem looks_settingsFor (given? : Option Path) (path : Path) :
    Looks (settingsFor environment disk given? path) (InForce environment disk given? path)
      (Misgoverned environment disk given? path) := by
  have load {file : Path} (governs : Governs disk given? path (some file)) :
      Looks (loadSettings environment disk file) (InForce environment disk given? path)
        (Misgoverned environment disk given? path) :=
    (looks_loadSettings environment disk file).mono (fun _ spells => .spelled governs spells)
      fun _ rejects => ⟨file, governs, rejects⟩
  unfold settingsFor
  cases given? with
  | some given => exact load .given
  | none =>
    refine .orFail_bind fun isDirectory asked => .orFail_bind fun found answer => ?_
    obtain ⟨directory, resolved, nearest⟩ := nearest_of_settingsFile? disk answer
    have governs : Governs disk none path found := by
      cases isDirectory with
      | true => exact .atDirectory asked resolved nearest
      | false => exact .besideFile asked resolved nearest
    cases found with
    | some file => exact load governs
    | none => exact .trace_bind (by simp) (.pure (.standard governs))

end Looks

end ArchDiagram.Command
