import ArchDiagram.Proofs.SettingsInForce
import ArchDiagram.Proofs.Sites
import ArchDiagram.Proofs.Ways

/-!
Checking paths. All paths are looked up before anything is checked, and one that is refused is all
that is reported. Otherwise the sources that the paths lead to are checked one by one, each once and
under the settings of the path that leads to it first, and the run comes to the sum of these checks.
-/

namespace ArchDiagram.Command

open Analysis

section Find

variable (environment : Environment) (disk : Disk) (given? : Option Path)

/-- There is room for following the patterns of settings below a directory. -/
def Followed (path : Path) (settings : WideSettings) : Prop :=
  disk.isDirectory path = .ok true →
    ∀ text ∈ settings.includePatterns, environment.follows disk path text = true

/-- The sources at a path, with the settings that are in force there. -/
def FoundBy (path : Path) (found : List (Path × WideSettings)) : Prop :=
  disk.pathExists path = .ok true ∧ ∃ settings files,
    InForce environment disk given? path settings ∧
    Discovery.sources disk settings path = .ok files ∧ Followed environment disk path settings ∧
    found = files.map fun file => (file, settings)

/-- A source with the settings of a path that leads to it. Its site is the number of the path and
its own number among the sources at the path. -/
def FoundAt (paths : List Path) (site : Nat ×ₗ Nat) (source : Path × WideSettings) : Prop :=
  ∃ path files, paths[(ofLex site).1]? = some path ∧
    InForce environment disk given? path source.2 ∧
    Discovery.sources disk source.2 path = .ok files ∧ files[(ofLex site).2]? = some source.1

theorem discovered_ne_checking (count : Nat) (path file : Path) :
    Line.trace .checking
        ("Discovered " ++ toString count ++ " source file(s) under " ++ path.text) ≠
      .trace .checking ("Checking " ++ file.text) := by
  intro same
  have texts := congrArg String.toList (Line.trace.inj same).2
  simp at texts

theorem looks_ensureFollows (settings : WideSettings) (path : Path) {refuses : String → Prop} :
    Looks (ensureFollows environment disk settings path)
      (fun _ => ∀ text ∈ settings.includePatterns, environment.follows disk path text = true)
      refuses := by
  unfold ensureFollows
  by_cases room : settings.includePatterns.all (environment.follows disk path) = true
  · rw [if_pos room]
    exact .pure (List.all_eq_true.1 room)
  · rw [if_neg room]
    exact .fail _

theorem looks_sourcesAt (path : Path) :
    Looks (sourcesAt environment disk given? path) (FoundBy environment disk given? path)
      (Refused environment disk given? path) := by
  unfold sourcesAt
  refine .orFail_bind fun exists_ asked => ?_
  cases exists_ with
  | false => exact .reject (.missing asked)
  | true =>
    refine (looks_settingsFor environment disk given? path).bind ?_ fun settings inForce => ?_
    · rintro reason ⟨file, governs, rejects⟩
      exact .rejected asked governs rejects
    · refine .orFail_bind fun files found => .orFail_bind fun isFile answer => ?_
      -- A file needs no room: patterns are followed below directories only.
      have gives (followed : Followed environment disk path settings) :
          FoundBy environment disk given? path (files.map fun file => (file, settings)) :=
        ⟨asked, settings, files, inForce, found, followed, rfl⟩
      cases isFile with
      | true =>
        exact .pure (gives fun isDirectory =>
          absurd isDirectory (Disk.not_isDirectory_of_isFile answer))
      | false =>
        refine (looks_ensureFollows environment disk settings path).bind (fun _ => id)
          fun _ followed => ?_
        exact .trace_bind (discovered_ne_checking files.length path)
          (.pure (gives fun _ => followed))

theorem getElem?_of_forall₂ {α β : Type} {R : α → β → Prop} {xs : List α} {ys : List β}
    (all : List.Forall₂ R xs ys) {i : Nat} {y : β} (there : ys[i]? = some y) :
    ∃ x, xs[i]? = some x ∧ R x y := by
  induction all generalizing i with
  | nil => cases there
  | cons here _ ih =>
    cases i with
    | zero =>
      cases there
      exact ⟨_, rfl, here⟩
    | succ i => exact ih there

theorem exists_forall₂_iff {α β : Type} {R : α → β → Prop} {xs : List α} :
    (∃ ys, List.Forall₂ R xs ys) ↔ ∀ x ∈ xs, ∃ y, R x y := by
  induction xs with
  | nil => exact iff_of_true ⟨[], .nil⟩ (List.forall_mem_nil _)
  | cons x rest ih =>
    rw [List.forall_mem_cons, ← ih]
    constructor
    · rintro ⟨_, all⟩
      obtain ⟨y, ys, here, others, -⟩ := List.forall₂_cons_left_iff.1 all
      exact ⟨⟨y, here⟩, ys, others⟩
    · rintro ⟨⟨y, here⟩, ys, others⟩
      exact ⟨y :: ys, .cons here others⟩

theorem enumerates_found {paths : List Path} {lists : List (List (Path × WideSettings))}
    (found : List.Forall₂ (FoundBy environment disk given?) paths lists) :
    Enumerates (FoundAt environment disk given? paths) lists.flatten := by
  -- A source is told by the number of its path and its number among those found there.
  have listed := (enumerates_list lists).flatMap id (fun _ list (j : Nat) source =>
    list[j]? = some source) fun _ list _ => enumerates_list list
  rw [List.flatMap_id] at listed
  refine listed.congr fun site source => ?_
  constructor
  · rintro ⟨list, there, inside⟩
    obtain ⟨path, here, -, settings, files, inForce, answer, -, rfl⟩ :=
      getElem?_of_forall₂ found there
    rw [List.getElem?_map] at inside
    obtain ⟨file, known, rfl⟩ := Option.map_eq_some_iff.1 inside
    exact ⟨path, files, here, inForce, answer, known⟩
  · rintro ⟨path, files, here, inForce, answer, known⟩
    obtain ⟨list, there, -, settings, files', inForce', answer', -, rfl⟩ :=
      getElem?_of_forall₂ found.flip here
    cases inForce.unique inForce'
    cases answer.symm.trans answer'
    exact ⟨_, there, List.getElem?_map.trans (congrArg (Option.map _) known)⟩

theorem firstOfEach_eq (sources : List (Path × WideSettings)) :
    firstOfEach [] sources = firstsBy Prod.fst sources := by
  -- The sources that were passed are remembered by their paths alone.
  have from_ (seen : List Path) (earlier : List (Path × WideSettings))
      (same : ∀ file, file ∈ seen ↔ file ∈ earlier.map Prod.fst) :
      firstOfEach seen sources =
        (withEarlierFrom earlier sources).filterMap (unlessKeyed? Prod.fst) := by
    induction sources generalizing seen earlier with
    | nil => rfl
    | cons source rest ih =>
      rw [firstOfEach, withEarlierFrom, List.filterMap_cons, unlessKeyed?]
      by_cases known : source.1 ∈ seen
      · rw [if_pos known, if_pos ((same _).1 known)]
        refine ih seen (source :: earlier) fun file => ?_
        rw [List.map_cons, List.mem_cons, ← same]
        exact ⟨.inr, fun found => found.elim (fun here => here ▸ known) id⟩
      · rw [if_neg known, if_neg (mt (same _).2 known)]
        refine congrArg (source :: ·) (ih (source.1 :: seen) (source :: earlier) fun file => ?_)
        rw [List.map_cons, List.mem_cons, List.mem_cons, same]
  exact from_ [] [] fun _ => Iff.rfl

end Find

/-- A line about a source: its path, the line and the column in brackets, and what is wrong. -/
def lineAt (file : Path) (position : Position) (text : String) : String :=
  file.text ++ ": " ++
    ("[" ++ toString position.line ++ ":" ++ toString position.column ++ "] " ++ text)

/-- What is shown of a source: that it cannot be read, or the errors in its text and behind them the
findings of the rules that its settings leave on. -/
inductive Diagnoses (disk : Disk) : Path × WideSettings → List String → Prop
  | missing {file : Path} {settings : WideSettings} :
      disk.readText file = .error (.unusable .notFound) →
      Diagnoses disk (file, settings) ["Error: Source file not found: " ++ file.text]
  | unreadable {file : Path} {settings : WideSettings} {failure : Disk.TextFailure} :
      disk.readText file = .error failure → failure ≠ .unusable .notFound →
      Diagnoses disk (file, settings)
        ["Error: Cannot read source file " ++ file.text ++ ": " ++ failure.message file]
  | read {file : Path} {settings : WideSettings} {text : String} {parsed : Syntax.Parsed} :
      disk.readText file = .ok text → Syntax.parse text = .ok parsed →
      Diagnoses disk (file, settings)
        (parsed.errors.map (fun error => lineAt file error.position error.message) ++
          ((findings parsed.program).filter (·.violation.rule ∉ settings.disabledRules)).map
            fun finding => lineAt file finding.span.start
              ("(" ++ Settings.ruleName finding.violation.rule ++ ") " ++
                finding.violation.message))

theorem lineAt_error (file : Path) (error : SyntaxError) :
    lineAt file error.position error.message = file.text ++ ": " ++ error.report.text := rfl

theorem lineAt_finding (file : Path) (finding : Finding) :
    lineAt file finding.span.start
        ("(" ++ Settings.ruleName finding.violation.rule ++ ") " ++ finding.violation.message) =
      file.text ++ ": " ++ finding.report.text := by
  rw [Settings.ruleName_eq]
  rfl

theorem diagnoses_unreadable {disk : Disk} {file : Path} {failure : Disk.TextFailure}
    (unread : disk.readText file = .error failure) (settings : WideSettings) :
    Diagnoses disk (file, settings) ["Error: " ++ unreadable file failure] := by
  by_cases absent : failure = .unusable .notFound
  · subst absent
    exact .missing unread
  · have other : Diagnoses disk (file, settings) _ := .unreadable unread absent
    have same : unreadable file failure =
        "Cannot read source file " ++ file.text ++ ": " ++ failure.message file := by
      unfold unreadable
      split
      · exact absurd rfl absent
      · rfl
    rw [same]
    exact other

theorem shows_checkText (file : Path) (settings : WideSettings) (text : String) :
    Shows (checkText file settings text) fun lines checked => lines = [] ∧
      ArchDiagram.check settings.disabledIds text = .ok checked := by
  unfold checkText
  refine (Shows.write _).bind fun lines _ written => ?_
  refine (Shows.orFail _ _).bind fun more checked => ?_
  rintro ⟨rfl, answer⟩
  subst written
  dsimp only
  by_cases some_ : 0 < checked.suppressed
  · rw [if_pos some_]
    refine (Shows.write _).bind fun more _ written => ?_
    subst written
    exact .pure ⟨rfl, answer⟩
  · rw [if_neg some_]
    exact .pure ⟨rfl, answer⟩

theorem shows_reportAll (file : Path) (checked : Checked) :
    Shows (reportAll file checked) fun lines _ =>
      lines = checked.messages.map fun message => .report (file.text ++ ": " ++ message) := by
  unfold reportAll
  induction checked.messages with
  | nil => exact .pure rfl
  | cons message rest ih =>
    refine (Shows.write _).bind fun lines _ written => ih.mono fun more _ others => ?_
    rw [written, others]
    rfl

theorem diagnoses_check {disk : Disk} {file : Path} {settings : WideSettings} {text : String}
    {checked : Checked} (readable : disk.readText file = .ok text)
    (answer : ArchDiagram.check settings.disabledIds text = .ok checked) :
    Diagnoses disk (file, settings)
      (checked.messages.map fun message => file.text ++ ": " ++ message) ∧
    checked.errorCount = checked.messages.length := by
  rw [ArchDiagram.check] at answer
  cases parses : Syntax.parse text with
  | error =>
    rw [parses] at answer
    cases answer
  | ok parsed =>
    rw [parses] at answer
    cases answer
    -- Rules are switched off by name, but no two rules share a name.
    have kept : (findings parsed.program).filter (·.violation.rule.id ∉ settings.disabledIds) =
        (findings parsed.program).filter (·.violation.rule ∉ settings.disabledRules) :=
      List.filter_congr fun finding _ => by simp only [SettingsOf.id_mem_disabledIds]
    have diagnoses : Diagnoses disk (file, settings) _ := .read readable parses
    constructor
    · rw [← kept] at diagnoses
      simpa only [Checked.messages, reportTexts, List.map_append, List.map_map, Function.comp_def,
        lineAt_error, lineAt_finding] using diagnoses
    · simp only [Checked.errorCount, Checked.messages, reportTexts, List.length_append,
        List.length_map]

theorem shows_checkFile (disk : Disk) (file : Path) (settings : WideSettings) :
    Shows (checkFile disk file settings) fun lines count => ∃ diagnostics,
      Diagnoses disk (file, settings) diagnostics ∧ lines = diagnostics.map .report ∧
      count = diagnostics.length := by
  have read_ : Shows (sourceText disk file) fun lines text => lines = [] ∧
      ((∃ failure, disk.readText file = .error failure ∧ text = .error (unreadable file failure)) ∨
        ∃ content, disk.readText file = .ok content ∧ text = .ok content) := by
    unfold sourceText
    cases readable : disk.readText file with
    | error failure =>
      cases failure with
      | undecodable => exact .pure ⟨rfl, .inl ⟨_, rfl, rfl⟩⟩
      | unusable failure =>
        cases failure with
        | nullCharacter => exact .fail _
        | _ => exact .pure ⟨rfl, .inl ⟨_, rfl, rfl⟩⟩
    | ok text => exact .pure ⟨rfl, .inr ⟨_, rfl, rfl⟩⟩
  refine read_.bind fun lines text => ?_
  rintro ⟨rfl, ⟨failure, readable, rfl⟩ | ⟨content, readable, rfl⟩⟩
  · refine (Shows.write _).bind fun more _ written => ?_
    subst written
    exact .pure ⟨_, diagnoses_unreadable readable settings, rfl, rfl⟩
  · refine (shows_checkText file settings content).bind fun more checked => ?_
    rintro ⟨rfl, answer⟩
    refine (shows_reportAll file checked).bind fun shown_ _ written => ?_
    obtain ⟨diagnoses, count⟩ := diagnoses_check readable answer
    refine .pure ⟨_, diagnoses, ?_, ?_⟩
    · rw [written, List.map_map]
      simp
    · rw [count, List.length_map]

theorem shows_checkAll (disk : Disk) (sources : List (Path × WideSettings)) :
    Shows (sources.mapM fun (file, settings) => checkFile disk file settings)
      fun lines counts => ∃ reports : List (List String),
        List.Forall₂ (Diagnoses disk) sources reports ∧ lines = reports.flatten.map .report ∧
        counts.foldl (· + ·) 0 = reports.flatten.length := by
  refine (Shows.mapM (fun source => shows_checkFile disk source.1 source.2) sources).mono ?_
  rintro _ _ ⟨parts, checked, rfl, rfl⟩
  rw [← List.sum_eq_foldl]
  induction checked with
  | nil => exact ⟨[], .nil, rfl, rfl⟩
  | cons here _ ih =>
    obtain ⟨diagnostics, diagnoses, lines, count⟩ := here
    obtain ⟨reports, others, more, total⟩ := ih
    refine ⟨diagnostics :: reports, .cons diagnoses others, ?_, ?_⟩
    · rw [List.map_cons, List.flatten_cons, lines, more, List.flatten_cons, List.map_append]
    · rw [List.map_cons, List.sum_cons, count, total, List.flatten_cons, List.length_append]

/-- What is shown of the checks of so many sources, which come to the given diagnostics. -/
def checkLines (count : Nat) (diagnostics : List String) : List Line :=
  if count = 0 then [.result "No .isx files found."]
  else
    .result ("Checking " ++ toString count ++ " file(s)...") :: diagnostics.map .report ++
      [if diagnostics = [] then .result "No issues found."
        else .report ("Found " ++ toString diagnostics.length ++ " error(s).")]

def resultLines (count : Nat) (diagnostics : List String) : List String :=
  if count = 0 then ["No .isx files found."]
  else
    ("Checking " ++ toString count ++ " file(s)...") ::
      if diagnostics = [] then ["No issues found."] else []

def reportLines (diagnostics : List String) : List String :=
  diagnostics ++
    if diagnostics = [] then [] else ["Found " ++ toString diagnostics.length ++ " error(s)."]

theorem resultText_checkLines (count : Nat) (diagnostics : List String) :
    resultText (checkLines count diagnostics) = joinLines (resultLines count diagnostics) := by
  unfold checkLines resultLines resultText
  by_cases nothing : count = 0
  · rw [if_pos nothing, if_pos nothing]
    rfl
  · rw [if_neg nothing, if_neg nothing, List.filterMap_append, List.filterMap_cons,
      List.filterMap_map]
    by_cases clean : diagnostics = []
    · simp [clean]
    · simp [clean]

theorem reportText_checkLines {count : Nat} {diagnostics : List String}
    (none_ : count = 0 → diagnostics = []) :
    reportText false (checkLines count diagnostics) = joinLines (reportLines diagnostics) := by
  unfold checkLines reportLines reportText
  by_cases nothing : count = 0
  · rw [if_pos nothing, none_ nothing]
    rfl
  · rw [if_neg nothing, List.filterMap_append, List.filterMap_cons, List.filterMap_map]
    by_cases clean : diagnostics = []
    · simp [clean]
    · simp [clean]

section Whole

variable (environment : Environment) (disk : Disk) (given? : Option Path) (paths : List Path)

/-- The sources that paths lead to, each once, under the settings of the first path to it. -/
def Sources (sources : List (Path × WideSettings)) : Prop :=
  Enumerates (fun site source => FoundAt environment disk given? paths site source ∧
    ∀ earlier < site, ∀ other, FoundAt environment disk given? paths earlier other →
      other.1 ≠ source.1) sources

def RefusedFirst (reason : String) : Prop :=
  ∃ before path after, paths = before ++ path :: after ∧
    (∀ sooner ∈ before, ∀ other, ¬ Refused environment disk given? sooner other) ∧
    Refused environment disk given? path reason

variable {environment disk given?} in
theorem FoundBy.not_refused {path : Path} {found : List (Path × WideSettings)}
    (by_ : FoundBy environment disk given? path found) (reason : String) :
    ¬ Refused environment disk given? path reason := by
  obtain ⟨exists_, settings, files, inForce, -⟩ := by_
  exact inForce.not_refused exists_

theorem looks_sources :
    Looks (paths.mapM (sourcesAt environment disk given?))
      (fun lists => (∀ path ∈ paths, ∀ reason, ¬ Refused environment disk given? path reason) ∧
        Sources environment disk given? paths (firstOfEach [] lists.flatten))
      (RefusedFirst environment disk given? paths) := by
  have looks := Looks.mapM (looks_sourcesAt environment disk given?) paths
  refine looks.mono (fun lists found => ⟨?_, ?_⟩) ?_
  · intro path inside reason
    obtain ⟨list, by_⟩ := exists_forall₂_iff.1 ⟨lists, found⟩ path inside
    exact FoundBy.not_refused by_ reason
  · rw [firstOfEach_eq]
    exact (enumerates_found environment disk given? found).firstsBy Prod.fst
  · rintro reason ⟨before, path, after, split, fine, why⟩
    refine ⟨before, path, after, split, fun sooner inside other => ?_, why⟩
    obtain ⟨found, by_⟩ := fine sooner inside
    exact by_.not_refused other

theorem meets_runCheck :
    (runCheck environment disk paths given?).Meets
      (fun lines status =>
        (∀ path ∈ paths, ∀ reason, ¬ Refused environment disk given? path reason) ∧
        ∃ sources reports, Sources environment disk given? paths sources ∧
          List.Forall₂ (Diagnoses disk) sources reports ∧
          shown lines = checkLines sources.length reports.flatten ∧
          status = if reports.flatten = [] then 0 else 1)
      fun lines status => status = 1 ∧ ∃ silent reason, Silent silent ∧
        RefusedFirst environment disk given? paths reason ∧
        lines = silent ++ [.report ("Error: " ++ reason)] := by
  unfold runCheck
  refine Run.Meets.bind (looks_sources environment disk given? paths) (fun _ _ => id) ?_
  rintro lines lists ⟨quiet, fine, listed⟩
  dsimp only
  generalize firstOfEach [] lists.flatten = sources at listed ⊢
  -- Behind the looking up nothing refuses: the rest is told by what it shows.
  refine Shows.meets (?_ : Shows _ fun more status => ∃ reports,
    List.Forall₂ (Diagnoses disk) sources reports ∧
    more = checkLines sources.length reports.flatten ∧
    status = if reports.flatten = [] then 0 else 1) fun more status => ?_
  · cases sources with
    | nil =>
      refine (Shows.write _).bind fun more _ written => ?_
      exact .pure ⟨[], .nil, by rw [written]; rfl, rfl⟩
    | cons source rest =>
      refine (Shows.write _).bind fun first _ title => ?_
      refine (shows_checkAll disk _).bind fun middle counts => ?_
      rintro ⟨reports, diagnoses, reported, total⟩
      have some_ : ¬ (source :: rest).length = 0 := Nat.succ_ne_zero rest.length
      rw [total]
      by_cases clean : reports.flatten = []
      · rw [clean, List.length_nil, if_pos rfl]
        refine (Shows.write _).bind fun last _ written => ?_
        refine .pure ⟨reports, diagnoses, ?_, (if_pos clean).symm⟩
        rw [title, reported, written, checkLines, if_neg some_, clean]
        rfl
      · rw [if_neg (mt List.length_eq_zero_iff.1 clean)]
        refine (Shows.write _).bind fun last _ written => ?_
        refine .pure ⟨reports, diagnoses, ?_, (if_neg clean).symm⟩
        rw [title, reported, written, checkLines, if_neg some_, if_neg clean, List.append_nil]
        rfl
  · rintro ⟨reports, diagnoses, written, isStatus⟩
    refine ⟨fine, sources, reports, listed, diagnoses, ?_, isStatus⟩
    rw [shown_append, quiet.shown_eq, written, List.nil_append]

variable {paths given?} in
theorem perform_check {words : List String} {verbose : Bool}
    (isCheck : read words = .ok ⟨verbose, some (.check paths given?)⟩) :
    performIn environment disk words =
      (runCheck environment disk paths given? >>= fun status => pure (disk, status)).outcome disk
        verbose := by
  rw [performIn, isCheck]
  rfl

theorem lines_run_check : (run environment disk (.check paths given?)).lines =
    (runCheck environment disk paths given?).lines := by
  rw [run]
  generalize runCheck environment disk paths given? = checked
  obtain ⟨lines, stop | value⟩ := checked
  · rfl
  · exact List.append_nil lines

end Whole

/-- A check of paths comes to the sum of the checks of its sources, unless it fails. If some path is
refused, the first reason is all that is shown, and no source is checked. Otherwise every source
that the paths lead to is checked once, in the order in which they are found, under the settings in
force for the path that leads to it first. The diagnostics are shown one source after the other, and
the run ends with their number and with an exit status that says whether there are any. -/
theorem check_exact {environment : Environment} {disk : Disk} {words : List String}
    {paths : List Path} {given? : Option Path} {status : Nat}
    (isCheck : read words = .ok ⟨false, some (.check paths given?)⟩)
    (ended : (performIn environment disk words).status = .ok status) :
    ((∃ path ∈ paths, ∃ reason, Refused environment disk given? path reason) →
      ∃ reason, RefusedFirst environment disk given? paths reason ∧
        performIn environment disk words = ⟨disk, "", "Error: " ++ reason ++ "\n", .ok 1⟩ ∧
        ∀ file : Path, .trace .checking ("Checking " ++ file.text) ∉
          (run environment disk (.check paths given?)).lines) ∧
    ((∀ path ∈ paths, ∀ reason, ¬ Refused environment disk given? path reason) →
      ∃ sources reports, Sources environment disk given? paths sources ∧
        List.Forall₂ (Diagnoses disk) sources reports ∧
        performIn environment disk words =
          ⟨disk, String.join ((resultLines sources.length reports.flatten).map (· ++ "\n")),
            String.join ((reportLines reports.flatten).map (· ++ "\n")),
            .ok (if reports.flatten = [] then 0 else 1)⟩) := by
  have meets := meets_runCheck environment disk given? paths
  rw [perform_check environment disk isCheck] at ended ⊢
  rw [lines_run_check]
  generalize runCheck environment disk paths given? = checked at meets ended ⊢
  obtain ⟨lines, (exit | failure) | value⟩ := checked
  · obtain ⟨rfl, silent, reason, quiet, first, rfl⟩ := meets
    constructor
    · refine fun _ => ⟨reason, first, ?_, fun file inside => ?_⟩
      · change Outcome.mk disk (resultText (silent ++ [.report ("Error: " ++ reason)]))
          (reportText false (silent ++ [.report ("Error: " ++ reason)])) (.ok 1) = _
        rw [← resultText_shown, ← reportText_shown, shown_append, quiet.shown_eq]
        rfl
      · rcases List.mem_append.1 inside with traced | last
        · exact (quiet _ traced).2 file rfl
        · cases List.mem_singleton.1 last
    · intro fine
      obtain ⟨before, path, after, rfl, -, refused⟩ := first
      exact absurd refused (fine path (by simp) reason)
  · cases ended
  · obtain ⟨fine, sources, reports, listed, diagnoses, written, rfl⟩ := meets
    constructor
    · rintro ⟨path, inside, reason, refused⟩
      exact absurd refused (fine path inside reason)
    · refine fun _ => ⟨sources, reports, listed, diagnoses, ?_⟩
      -- Without sources nothing is counted, so no line ends the reports.
      have nothing (none_ : sources.length = 0) : reports.flatten = [] := by
        rw [List.length_eq_zero_iff] at none_
        subst none_
        cases diagnoses
        rfl
      change Outcome.mk disk (resultText (lines ++ [])) (reportText false (lines ++ [])) (.ok _) = _
      rw [List.append_nil, ← resultText_shown, ← reportText_shown, written, resultText_checkLines,
        reportText_checkLines nothing]
      rfl

/-- A source that is found twice, one that cannot be read and one that is no diagram, and a path
with nothing at it. -/
theorem check_exact_overlapping :
    let text := "diagram d : class \x7b actor U \x7d"
    let disk : Disk := ⟨.directory [("a", .directory [("x.isx", .file text.toUTF8.toList)]),
      ("b", .directory [("y.isx", .file [255])]), ("c.isx", .file "U".toUTF8.toList)], []⟩
    let paths := ["a/x.isx", "a", "b/y.isx", "c.isx"].map Path.ofText
    let missing := ["a/x.isx", "nope"].map Path.ofText
    (∃ sources reports, Sources .standard disk none paths sources ∧
      List.Forall₂ (Diagnoses disk) sources reports ∧
      String.join ((reportLines reports.flatten).map (· ++ "\n")) =
        "a/x.isx: [1:21] (SS-9) Entity kind 'actor' is not valid in 'class' diagrams\n" ++
        "Error: Cannot read source file b/y.isx: 'utf-8' codec can't decode byte 0xff in " ++
        "position 0: invalid start byte\n" ++
        "c.isx: [1:1] Unexpected token 'U' at top level\nFound 3 error(s).\n") ∧
    ∃ reason, RefusedFirst .standard disk none missing reason ∧
      perform disk ["check", "a/x.isx", "nope"] =
        ⟨disk, "", "Error: " ++ reason ++ "\n", .ok 1⟩ := by
  intro text disk paths missing
  let words := ["check", "a/x.isx", "a", "b/y.isx", "c.isx"]
  have ended : (perform disk words).status = .ok 1 := by
    have answer : (perform disk words).status.toOption = some 1 := by
      decide +kernel
    cases status : (perform disk words).status with
    | error failure =>
      rw [status] at answer
      cases answer
    | ok value =>
      rw [status] at answer
      cases answer
      rfl
  have exited : (perform disk ["check", "a/x.isx", "nope"]).status = .ok 1 := rfl
  have isCheck : read words = .ok ⟨false, some (.check paths none)⟩ := rfl
  have isOther : read ["check", "a/x.isx", "nope"] = .ok ⟨false, some (.check missing none)⟩ := rfl
  have absent : Refused .standard disk none (.ofText "nope") _ := .missing rfl
  obtain ⟨refuses, sums⟩ := check_exact isCheck ended
  obtain ⟨reason, first, outcome, -⟩ := (check_exact isOther exited).1
    ⟨.ofText "nope", List.mem_cons_of_mem _ List.mem_cons_self, _, absent⟩
  refine ⟨?_, reason, first, outcome⟩
  have fine (path : Path) (inside : path ∈ paths) (reason : String) :
      ¬ Refused .standard disk none path reason := by
    intro refused
    obtain ⟨_, -, silent, -⟩ := refuses ⟨path, inside, reason, refused⟩
    have results : (perform disk words).results = "" :=
      congrArg Outcome.results silent
    exact absurd results (by decide +kernel)
  obtain ⟨sources, reports, listed, diagnoses, whole⟩ := sums fine
  refine ⟨sources, reports, listed, diagnoses, ?_⟩
  have reported : (perform disk words).reports =
      String.join ((reportLines reports.flatten).map (· ++ "\n")) :=
    congrArg Outcome.reports whole
  rw [← reported]
  decide +kernel

end ArchDiagram.Command
