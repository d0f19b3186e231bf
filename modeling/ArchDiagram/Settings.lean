import ArchDiagram.Analysis.Rule
import ArchDiagram.Text.CodePoints

/-!
The settings of a project: where its sources are and which rules are not reported.
-/

namespace ArchDiagram

/-- Patterns that select sources, names of directories that are left out, and rules that are
switched off. The texts are strings or, where they come from a file, code points. -/
structure SettingsOf (α : Type) where
  includePatterns : List α
  excludedNames : List α
  disabledRules : List Analysis.Rule := []
deriving DecidableEq, Repr

abbrev Settings := SettingsOf String

abbrev WideSettings := SettingsOf Text.CodePoints

namespace SettingsOf

variable {α β : Type}

def map (f : α → β) (settings : SettingsOf α) : SettingsOf β where
  includePatterns := settings.includePatterns.map f
  excludedNames := settings.excludedNames.map f
  disabledRules := settings.disabledRules

/-- The names of the rules that are switched off, each once, by code points. -/
def disabledIds (settings : SettingsOf α) : List String :=
  ((Analysis.Rule.all.filter (· ∈ settings.disabledRules)).map (·.id)).mergeSort (· ≤ ·)

theorem mem_disabledIds {settings : SettingsOf α} {id : String} :
    id ∈ settings.disabledIds ↔ ∃ rule ∈ settings.disabledRules, rule.id = id := by
  rw [disabledIds, List.mem_mergeSort, List.mem_map]
  constructor
  · rintro ⟨rule, inside, same⟩
    exact ⟨rule, of_decide_eq_true (List.mem_filter.1 inside).2, same⟩
  · rintro ⟨rule, inside, same⟩
    exact ⟨rule, List.mem_filter.2 ⟨rule.mem_all, decide_eq_true inside⟩, same⟩

theorem id_mem_disabledIds {settings : SettingsOf α} {rule : Analysis.Rule} :
    rule.id ∈ settings.disabledIds ↔ rule ∈ settings.disabledRules := by
  rw [mem_disabledIds]
  constructor
  · rintro ⟨other, inside, same⟩
    exact Analysis.Rule.eq_of_id_eq same ▸ inside
  · exact fun inside => ⟨rule, inside, rfl⟩

end SettingsOf

namespace Settings

def wide (settings : Settings) : WideSettings := settings.map Text.codes

instance : Coe Settings WideSettings := ⟨wide⟩

def standard : Settings := { includePatterns := ["**/*.isx"], excludedNames := [] }

def fileName : String := ".isomorph.yaml"

/-- The settings file that a new project begins with. It spells out the standard settings. -/
def standardText : String :=
  "# Isomorph project configuration\n"
    ++ "\n"
    ++ "include:\n"
    ++ "  - \"**/*.isx\"\n"
    ++ "exclude: []\n"
    ++ "disabled-rules: []\n"

end Settings

end ArchDiagram
