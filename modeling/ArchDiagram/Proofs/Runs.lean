import ArchDiagram.Command.Perform
import Mathlib.Data.List.Forall2
import Mathlib.Data.List.Induction

/-!
Runs, told by what they have written when they end and by how they end. A failure may end any of
them. A run that looks something up shows nothing but why it refuses; what a run of checks shows
comes from its parts, one after the other.
-/

namespace ArchDiagram.Command

variable {α β : Type}

namespace Run

theorem bind_assoc {γ : Type} (run : Run α) (next : α → Run β) (last : β → Run γ) :
    (run >>= next) >>= last = run >>= fun value => next value >>= last := by
  obtain ⟨lines, value | value⟩ := run
  · rfl
  · change (andThen ⟨lines ++ (next value).lines, (next value).value⟩ last) =
      ⟨lines ++ ((next value).andThen last).lines, ((next value).andThen last).value⟩
    unfold andThen
    cases (next value).value with
    | error stop => rfl
    | ok value => simp only [List.append_assoc]

theorem id_map (run : Run α) : id <$> run = run := by
  obtain ⟨lines, value | value⟩ := run
  · rfl
  · exact congrArg (Run.mk · _) (List.append_nil lines)

instance : LawfulMonad Run := .mk' Run id_map (fun _ _ => rfl) bind_assoc

/-- What a run has written when it ends, with a value or with an exit status. -/
def Meets (run : Run α) (gives : List Line → α → Prop) (exits : List Line → Nat → Prop) : Prop :=
  match run.value with
  | .ok value => gives run.lines value
  | .error (.exit status) => exits run.lines status
  | .error (.failure _) => True

namespace Meets

variable {run : Run α} {gives : List Line → α → Prop} {exits : List Line → Nat → Prop}

theorem mono (meets : run.Meets gives exits) {gives' : List Line → α → Prop}
    {exits' : List Line → Nat → Prop} (given : ∀ lines x, gives lines x → gives' lines x)
    (ended : ∀ lines status, exits lines status → exits' lines status) :
    run.Meets gives' exits' := by
  obtain ⟨lines, (status | failure) | value⟩ := run
  · exact ended lines status meets
  · trivial
  · exact given lines value meets

theorem bind {next : α → Run β} {gives' : List Line → β → Prop}
    {exits' : List Line → Nat → Prop} (first : run.Meets gives exits)
    (ended : ∀ lines status, exits lines status → exits' lines status)
    (rest : ∀ lines x, gives lines x → (next x).Meets (fun more => gives' (lines ++ more))
      fun more => exits' (lines ++ more)) :
    (run >>= next).Meets gives' exits' := by
  obtain ⟨lines, (status | failure) | value⟩ := run
  · exact ended lines status first
  · trivial
  · exact rest lines value first

end Meets

end Run

namespace Run

def Gives (run : Run α) (x : α) : Prop := run.value = .ok x

def Fails (run : Run α) : Prop := ∃ failure, run.value = .error (.failure failure)

end Run

/-- Traced steps, none of which begins the check of a source. -/
def Silent (lines : List Line) : Prop :=
  ∀ line ∈ lines, (∃ part text, line = .trace part text) ∧
    ∀ file : Path, line ≠ .trace .checking ("Checking " ++ file.text)

/-- A run that shows nothing and gives a value, or shows only why it refuses to. -/
def Looks (run : Run α) (gives : α → Prop) (refuses : String → Prop) : Prop :=
  run.Meets (fun lines x => Silent lines ∧ gives x) fun lines status => status = 1 ∧
    ∃ silent reason, Silent silent ∧ refuses reason ∧
      lines = silent ++ [.report ("Error: " ++ reason)]

theorem Silent.append {lines more : List Line} (first : Silent lines) (rest : Silent more) :
    Silent (lines ++ more) :=
  fun line inside => (List.mem_append.1 inside).elim (first line) (rest line)

theorem silent_nil : Silent [] := fun _ absent => absurd absent List.not_mem_nil

namespace Looks

variable {run : Run α} {gives : α → Prop} {refuses : String → Prop}

protected theorem pure {x : α} (given : gives x) : Looks (pure x) gives refuses :=
  ⟨silent_nil, given⟩

theorem orFail {ε : Type} (failure : ε → Failure) (answer : Except ε α) :
    Looks (Run.orFail failure answer) (answer = .ok ·) refuses := by
  cases answer with
  | error => trivial
  | ok value => exact ⟨silent_nil, rfl⟩

theorem reject {reason : String} (refused : refuses reason) :
    Looks (Run.reject (α := α) reason) gives refuses :=
  ⟨rfl, [], reason, silent_nil, refused, rfl⟩

theorem fail (failure : Failure) : Looks (Run.stop (α := α) (.failure failure)) gives refuses :=
  trivial

theorem mono (looks : Looks run gives refuses) {gives' : α → Prop} {refuses' : String → Prop}
    (given : ∀ x, gives x → gives' x) (refused : ∀ reason, refuses reason → refuses' reason) :
    Looks run gives' refuses' := by
  refine Run.Meets.mono looks (fun lines x => And.imp_right (given x)) ?_
  rintro lines status ⟨isOne, silent, reason, quiet, why, written⟩
  exact ⟨isOne, silent, reason, quiet, refused reason why, written⟩

theorem bind {next : α → Run β} {gives' : β → Prop} {refuses' : String → Prop}
    (first : Looks run gives refuses) (refused : ∀ reason, refuses reason → refuses' reason)
    (rest : ∀ x, gives x → Looks (next x) gives' refuses') :
    Looks (run >>= next) gives' refuses' := by
  refine Run.Meets.bind first ?_ fun lines x ⟨quiet, given⟩ =>
    Run.Meets.mono (rest x given) ?_ ?_
  · rintro lines status ⟨isOne, silent, reason, quiet, why, written⟩
    exact ⟨isOne, silent, reason, quiet, refused reason why, written⟩
  · exact fun more y ⟨silent, found⟩ => ⟨quiet.append silent, found⟩
  · rintro more status ⟨isOne, silent, reason, still, why, rfl⟩
    exact ⟨isOne, lines ++ silent, reason, quiet.append still, why, (List.append_assoc ..).symm⟩

theorem orFail_bind {ε : Type} {failure : ε → Failure} {answer : Except ε α} {next : α → Run β}
    {gives' : β → Prop} (rest : ∀ x, answer = .ok x → Looks (next x) gives' refuses) :
    Looks (Run.orFail failure answer >>= next) gives' refuses := by
  have step : Looks (Run.orFail failure answer) (answer = .ok ·) refuses := orFail failure answer
  exact step.bind (fun _ => id) rest

theorem trace_bind {part : Part} {text : String} {next : Unit → Run β} {gives' : β → Prop}
    (other : ∀ file : Path, Line.trace part text ≠ .trace .checking ("Checking " ++ file.text))
    (rest : Looks (next ()) gives' refuses) :
    Looks (Run.trace part text >>= next) gives' refuses := by
  have step : Looks (Run.trace part text) (fun _ => True) refuses := by
    refine ⟨fun line inside => ?_, trivial⟩
    rw [List.mem_singleton.1 inside]
    exact ⟨⟨part, text, rfl⟩, other⟩
  exact step.bind (fun _ => id) fun _ _ => rest

theorem mapM {look : α → Run β} {gives : α → β → Prop} {refuses : α → String → Prop}
    (each : ∀ x, Looks (look x) (gives x) (refuses x)) (xs : List α) :
    Looks (xs.mapM look) (List.Forall₂ gives xs) fun reason => ∃ before x after,
      xs = before ++ x :: after ∧ (∀ y ∈ before, ∃ found, gives y found) ∧ refuses x reason := by
  induction xs with
  | nil =>
    rw [List.mapM_nil]
    exact .pure .nil
  | cons x rest ih =>
    rw [List.mapM_cons]
    refine (each x).bind (fun reason why => ?_) fun y found => ih.bind (fun reason => ?_) ?_
    · exact ⟨[], x, rest, rfl, nofun, why⟩
    · rintro ⟨before, z, after, rfl, fine, why⟩
      exact ⟨x :: before, z, after, rfl, List.forall_mem_cons.2 ⟨⟨y, found⟩, fine⟩, why⟩
    · exact fun ys others => .pure (.cons found others)

end Looks

def isShown : Line → Bool
  | .trace _ _ => false
  | .result _ | .report _ => true

/-- The lines that are shown when traced steps are not asked for. -/
def shown (lines : List Line) : List Line := lines.filter isShown

theorem shown_append (lines more : List Line) : shown (lines ++ more) = shown lines ++ shown more :=
  List.filter_append ..

theorem Silent.shown_eq {lines : List Line} (silent : Silent lines) : shown lines = [] := by
  rw [shown, List.filter_eq_nil_iff]
  intro line inside
  obtain ⟨⟨part, text, rfl⟩, -⟩ := silent line inside
  exact Bool.false_ne_true

/-- A run that never refuses, with a value and what it shows. -/
def Shows (run : Run α) (gives : List Line → α → Prop) : Prop :=
  run.Meets (fun lines => gives (shown lines)) fun _ _ => False

namespace Shows

variable {run : Run α} {gives : List Line → α → Prop}

protected theorem pure {x : α} (given : gives [] x) : Shows (pure x) gives := given

theorem mono (shows_ : Shows run gives) {gives' : List Line → α → Prop}
    (given : ∀ lines x, gives lines x → gives' lines x) : Shows run gives' :=
  Run.Meets.mono shows_ (fun lines => given (shown lines)) fun _ _ => id

theorem meets (shows_ : Shows run gives) {gives' : List Line → α → Prop}
    {exits' : List Line → Nat → Prop} (given : ∀ lines x, gives (shown lines) x → gives' lines x) :
    run.Meets gives' exits' :=
  Run.Meets.mono shows_ given fun _ _ => False.elim

theorem bind {next : α → Run β} {gives' : List Line → β → Prop} (first : Shows run gives)
    (rest : ∀ lines x, gives lines x → Shows (next x) fun more => gives' (lines ++ more)) :
    Shows (run >>= next) gives' := by
  refine Run.Meets.bind first (fun _ _ => False.elim) fun lines x given => ?_
  refine Run.Meets.mono (rest (shown lines) x given) (fun more y found => ?_) fun _ _ => id
  rwa [shown_append]

theorem orFail {ε : Type} (failure : ε → Failure) (answer : Except ε α) :
    Shows (Run.orFail failure answer) fun lines x => lines = [] ∧ answer = .ok x := by
  cases answer with
  | error => trivial
  | ok value => exact ⟨rfl, rfl⟩

theorem fail (failure : Failure) : Shows (Run.stop (α := α) (.failure failure)) gives := trivial

theorem write (line : Line) : Shows (Run.write line) fun lines _ => lines = shown [line] := rfl

theorem mapM {step : α → Run β} {gives : α → List Line → β → Prop}
    (each : ∀ x, Shows (step x) (gives x)) (xs : List α) :
    Shows (xs.mapM step) fun lines ys => ∃ parts : List (List Line × β),
      List.Forall₂ (fun x part => gives x part.1 part.2) xs parts ∧
      lines = (parts.map Prod.fst).flatten ∧ ys = parts.map Prod.snd := by
  induction xs with
  | nil =>
    rw [List.mapM_nil]
    exact .pure ⟨[], .nil, rfl, rfl⟩
  | cons x rest ih =>
    rw [List.mapM_cons]
    refine (each x).bind fun lines y found => ih.bind fun more ys => ?_
    rintro ⟨parts, others, rfl, rfl⟩
    exact .pure ⟨(lines, y) :: parts, .cons found others, by simp, rfl⟩

theorem ends (shows_ : Shows run gives) : run.Fails ∨ ∃ x, run.Gives x := by
  obtain ⟨lines, (status | failure) | x⟩ := run
  · exact shows_.elim
  · exact .inl ⟨failure, rfl⟩
  · exact .inr ⟨x, rfl⟩

end Shows

theorem resultText_shown (lines : List Line) : resultText (shown lines) = resultText lines := by
  rw [resultText, resultText, shown, List.filterMap_filter]
  refine congrArg (fun choose => joinLines (List.filterMap choose lines)) (funext fun line => ?_)
  cases line <;> rfl

theorem reportText_shown (lines : List Line) :
    reportText false (shown lines) = reportText false lines := by
  rw [reportText, reportText, shown, List.filterMap_filter]
  refine congrArg (fun choose => joinLines (List.filterMap choose lines)) (funext fun line => ?_)
  cases line <;> rfl

structure Run.Alike (run run' : Run α) : Prop where
  value : run'.value = run.value
  shown : shown run'.lines = shown run.lines

namespace Run.Alike

theorem refl (run : Run α) : run.Alike run := ⟨rfl, rfl⟩

theorem bind {run run' : Run α} {next next' : α → Run β} (first : run.Alike run')
    (rest : ∀ x, run.value = .ok x → (next x).Alike (next' x)) :
    (run >>= next).Alike (run' >>= next') := by
  obtain ⟨lines, value⟩ := run
  obtain ⟨lines', value'⟩ := run'
  obtain ⟨rfl, same⟩ : value' = value ∧ Command.shown lines' = Command.shown lines :=
    ⟨first.value, first.shown⟩
  cases value' with
  | error stop => exact ⟨rfl, same⟩
  | ok x =>
    have more := rest x rfl
    refine ⟨more.value, ?_⟩
    change Command.shown (lines' ++ (next' x).lines) = Command.shown (lines ++ (next x).lines)
    rw [shown_append, shown_append, same, more.shown]

theorem mapM {step step' : α → Run β} {xs : List α}
    (each : ∀ x ∈ xs, (step x).Alike (step' x)) : (xs.mapM step).Alike (xs.mapM step') := by
  induction xs with
  | nil => exact refl _
  | cons x rest ih =>
    obtain ⟨here, others⟩ := List.forall_mem_cons.1 each
    rw [List.mapM_cons, List.mapM_cons]
    exact here.bind fun y _ => (ih others).bind fun ys _ => refl _

theorem outcome {run run' : Run Nat} (alike : run.Alike run') {disk disk' : Disk}
    {outcome outcome' : Outcome}
    (ended : outcome = (run >>= fun status => pure (disk, status)).outcome disk false)
    (ended' : outcome' = (run' >>= fun status => pure (disk', status)).outcome disk' false) :
    outcome'.results = outcome.results ∧ outcome'.reports = outcome.reports ∧
      outcome'.status = outcome.status := by
  obtain ⟨lines, value⟩ := run
  obtain ⟨lines', value'⟩ := run'
  obtain ⟨rfl, same⟩ : value' = value ∧ Command.shown lines' = Command.shown lines :=
    ⟨alike.value, alike.shown⟩
  subst ended ended'
  have results : resultText lines' = resultText lines := by
    rw [← resultText_shown, same, resultText_shown]
  have reports : reportText false lines' = reportText false lines := by
    rw [← reportText_shown, same, reportText_shown]
  rcases value' with (status | failure) | status
  · exact ⟨results, reports, rfl⟩
  · exact ⟨results, reports, rfl⟩
  · change resultText (lines' ++ []) = resultText (lines ++ []) ∧
      reportText false (lines' ++ []) = reportText false (lines ++ []) ∧ _
    rw [List.append_nil, List.append_nil]
    exact ⟨results, reports, rfl⟩

end Run.Alike

theorem Looks.alike {run run' : Run α} {gives gives' : α → Prop}
    {refuses refuses' : String → Prop} (looks : Looks run gives refuses)
    (looks' : Looks run' gives' refuses') {x : α} (given : run.Gives x) (given' : run'.Gives x) :
    run.Alike run' := by
  unfold Looks Run.Meets at looks looks'
  rw [given] at looks
  rw [given'] at looks'
  exact ⟨given'.trans given.symm, looks'.1.shown_eq.trans looks.1.shown_eq.symm⟩

end ArchDiagram.Command
