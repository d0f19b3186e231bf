import ArchDiagram.Settings.File
import Mathlib.Algebra.Group.Nat.Defs
import Mathlib.Data.List.Basic

/-!
Which documents are settings, and what is wrong with the others. A document has the documented shape
if it is nothing at all, or lists of texts under known keys, of which the last one names rules.
There are several ways to break the shape. They have an order, and a document breaks the shape in
one of them first. All this is told by what a loader shows of the document.
-/

namespace ArchDiagram.Settings

open ArchDiagram.Analysis (Rule)
open ArchDiagram.Text (CodePoints codes)
open ArchDiagram.Yaml (Loader Mapping Scalar View)

def documentedKeys : List String := ["include", "exclude", "disabled-rules"]

def ruleName (rule : Rule) : String := "SS-" ++ toString (Rule.all.idxOf rule + 1)

theorem ruleName_eq (rule : Rule) : ruleName rule = rule.id := by
  cases rule <;> decide

theorem ruleName_injective {rule other : Rule} (same : ruleName rule = ruleName other) :
    rule = other := by
  rw [ruleName_eq, ruleName_eq] at same
  exact Rule.eq_of_id_eq same

/-- How a key is shown in an error. An integer of more than 4300 digits is not. -/
inductive ShownAs : Scalar → CodePoints → Prop
  | null : ShownAs .null (codes "None")
  | truth : ShownAs (.boolean true) (codes "True")
  | falsehood : ShownAs (.boolean false) (codes "False")
  | integer {n : Int} : n.natAbs < 10 ^ 4300 → ShownAs (.integer n) (codes (toString n))
  | float {x : Decimal.Binary64} : ShownAs (.float x) (codes (Decimal.plain.text x))
  | notANumber {origin? : Option Nat} : ShownAs (.notANumber origin?) (codes "nan")
  | text {value : CodePoints} : ShownAs (.text value) value
  | timestamp {time : Yaml.Timestamp} : ShownAs (.timestamp time) (codes time.toText)
  | bytes {value : List UInt8} : ShownAs (.bytes value) (codes (Scalar.bytesText value))

/-- The texts that show the keys that settings do not have, in the order of the keys. -/
inductive UnknownTexts : List Scalar → List CodePoints → Prop
  | nil : UnknownTexts [] []
  | known {key : Scalar} {keys : List Scalar} {texts : List CodePoints} :
      (∃ name ∈ documentedKeys, key = .text (codes name)) → UnknownTexts keys texts →
      UnknownTexts (key :: keys) texts
  | unknown {key : Scalar} {text : CodePoints} {keys : List Scalar} {texts : List CodePoints} :
      (¬ ∃ name ∈ documentedKeys, key = .text (codes name)) → ShownAs key text →
      UnknownTexts keys texts → UnknownTexts (key :: keys) (text :: texts)

/-- A way to break the shape: the errors that it leads to, and at which index. -/
abbrev Breach := Nat → Error → Prop

section Document

variable (loader : Loader)

abbrev Entries := List (Scalar × loader.Value)

def Lists (value : loader.Value) (texts : List CodePoints) : Prop :=
  ∃ items, loader.look value = .list items ∧ items.map loader.look = texts.map .text

inductive Documented (document : loader.Value) : Prop
  | nothing : loader.look document = .scalar .null → Documented document
  | mapping {mapping : Mapping loader.Value} : loader.look document = .mapping mapping →
      (∀ entry ∈ mapping.entries, (∃ key ∈ documentedKeys, entry.1 = .text (codes key)) ∧
        ∃ texts, Lists loader entry.2 texts) →
      (∀ value ids, (.text (codes "disabled-rules"), value) ∈ mapping.entries →
        Lists loader value ids → ∀ id ∈ ids, ∃ rule : Rule, codes (ruleName rule) = id) →
      Documented document

/-- The texts under a key, as they are listed there, or the standard ones without the key. -/
inductive TextsUnder (entries : Entries loader) (key : String) (standard : List CodePoints) :
    List CodePoints → Prop
  | given {value : loader.Value} {texts : List CodePoints} : (.text (codes key), value) ∈ entries →
      Lists loader value texts → TextsUnder entries key standard texts
  | absent : (∀ value, (.text (codes key), value) ∉ entries) →
      TextsUnder entries key standard standard

/-- The settings that entries spell out. The rules that are switched off are those of the listed
names. -/
structure SpelledBy (entries : Entries loader) (settings : WideSettings) : Prop where
  includePatterns :
    TextsUnder loader entries "include" [codes "**/*.isx"] settings.includePatterns
  excludedNames : TextsUnder loader entries "exclude" [] settings.excludedNames
  disabledRules :
    TextsUnder loader entries "disabled-rules" [] (settings.disabledRules.map (codes <| ruleName ·))

/-- The settings that a document describes. -/
inductive Describes (document : loader.Value) (settings : WideSettings) : Prop
  | nothing : loader.look document = .scalar .null → SpelledBy loader [] settings →
      Describes document settings
  | mapping {mapping : Mapping loader.Value} : loader.look document = .mapping mapping →
      SpelledBy loader mapping.entries settings → Describes document settings

variable (document : loader.Value)

def Has (key : String) (value : loader.Value) : Prop :=
  ∃ mapping, loader.look document = .mapping mapping ∧
    (.text (codes key), value) ∈ mapping.entries

inductive NotMapping : Breach
  | mk : loader.look document ≠ .scalar .null →
      (∀ mapping, loader.look document ≠ .mapping mapping) → NotMapping 0 .notMapping

inductive UnknownFields : Breach
  | mk {mapping : Mapping loader.Value} {texts names : List CodePoints} :
      loader.look document = .mapping mapping →
      UnknownTexts (mapping.entries.map Prod.fst) texts → names.Perm texts →
      names.Pairwise (fun a b => ¬ b < a) → names ≠ [] → UnknownFields 0 (.unknownFields names)

inductive NotList (key : String) : Breach
  | mk {value : loader.Value} : Has loader document key value →
      (∀ items, loader.look value ≠ .list items) → NotList key 0 (.notList key)

inductive NotText (key : String) : Breach
  | mk {value item : loader.Value} {items : List loader.Value} {index : Nat} :
      Has loader document key value → loader.look value = .list items →
      items[index]? = some item → (∀ text, loader.look item ≠ .text text) →
      NotText key index (.notText key index)

inductive UnknownRule : Breach
  | mk {value item : loader.Value} {items : List loader.Value} {index : Nat} {id : CodePoints} :
      Has loader document "disabled-rules" value → loader.look value = .list items →
      items[index]? = some item → loader.look item = .text id →
      (∀ rule : Rule, codes (ruleName rule) ≠ id) → UnknownRule index (.unknownRule id)

def breachesUnderKeys : List Breach :=
  documentedKeys.flatMap fun key => [NotList loader document key, NotText loader document key]

/-- All ways to break the shape, in the order in which they count. -/
def breaches : List Breach :=
  [NotMapping loader document, UnknownFields loader document] ++
    breachesUnderKeys loader document ++ [UnknownRule loader document]

/-- A document with an integer as a key that has more digits than can be shown. -/
def HasLongKey : Prop :=
  ∃ mapping n value, loader.look document = .mapping mapping ∧
    (.integer n, value) ∈ mapping.entries ∧ 10 ^ 4300 ≤ n.natAbs

end Document

/-- The error of the first way in which the shape is broken, at the first index. -/
inductive FirstBreach : List Breach → Error → Prop
  | here {breach : Breach} {rest : List Breach} {index : Nat} {error : Error} :
      breach index error → (∀ other error, breach other error → index ≤ other) →
      FirstBreach (breach :: rest) error
  | later {breach : Breach} {rest : List Breach} {error : Error} :
      (∀ index error, ¬ breach index error) → FirstBreach rest error →
      FirstBreach (breach :: rest) error

def Clean (breaches : List Breach) : Prop :=
  ∀ breach ∈ breaches, ∀ index error, ¬ breach index error

section Order

variable {first rest : List Breach} {error : Error}

theorem Clean.append (clean : Clean first) (clean' : Clean rest) : Clean (first ++ rest) :=
  List.forall_mem_append.2 ⟨clean, clean'⟩

theorem FirstBreach.append (broken : FirstBreach first error) :
    FirstBreach (first ++ rest) error := by
  induction broken with
  | here broken least => exact .here broken least
  | later none_ _ ih => exact .later none_ ih

theorem FirstBreach.behind (clean : Clean first) (broken : FirstBreach rest error) :
    FirstBreach (first ++ rest) error := by
  induction first with
  | nil => exact broken
  | cons breach more ih =>
    have clean := List.forall_mem_cons.1 clean
    exact .later clean.1 (ih clean.2)

theorem FirstBreach.not_clean (broken : FirstBreach first error) : ¬ Clean first := by
  intro clean
  induction broken with
  | here broken => exact clean _ List.mem_cons_self _ _ broken
  | later _ _ ih => exact ih fun breach inside => clean breach (List.mem_cons_of_mem _ inside)

theorem FirstBreach.unique {other : Error}
    (told : ∀ breach ∈ first, ∀ {index error other}, breach index error → breach index other →
      error = other)
    (broken : FirstBreach first error) (again : FirstBreach first other) : error = other := by
  induction broken with
  | here broken least =>
    cases again with
    | here broken' least' =>
      have same := Nat.le_antisymm (least _ _ broken') (least' _ _ broken)
      subst same
      exact told _ List.mem_cons_self broken broken'
    | later none_ => exact absurd broken (none_ _ _)
  | later none_ _ ih =>
    cases again with
    | here broken' => exact absurd broken' (none_ _ _)
    | later _ again => exact ih (fun breach inside => told breach (.tail _ inside)) again

end Order

theorem toString_int (n : Int) :
    toString n = if n < 0 then "-" ++ toString n.natAbs else toString n.natAbs := by
  cases n with
  | ofNat n => rfl
  | negSucc n => exact (if_pos (Int.negSucc_lt_zero n)).symm

theorem keyText?_integer (n : Int) : Scalar.keyText? (.integer n) =
    if n.natAbs < 10 ^ 4300 then some (codes (toString n)) else none := by
  have limit : Decimal.digitLimit = 4300 := rfl
  have short : (toString n.natAbs).length ≤ Decimal.digitLimit ↔
      n.natAbs < 10 ^ Decimal.digitLimit := Nat.length_repr_le_iff (by decide)
  rw [limit] at short
  rw [toString_int, Scalar.keyText?]
  by_cases long : 4300 < (toString n.natAbs).length
  · rw [if_neg (mt short.2 (Nat.not_le.2 long))]
    exact if_pos long
  · rw [if_pos (short.1 (Nat.not_lt.1 long))]
    exact if_neg long

theorem keyText?_eq_some_iff {key : Scalar} {text : CodePoints} :
    key.keyText? = some text ↔ ShownAs key text := by
  constructor
  · intro shown
    cases key with
    | integer n =>
      rw [keyText?_integer] at shown
      split at shown
      · cases shown
        exact .integer ‹_›
      · cases shown
    | boolean value =>
      cases value
      · cases shown
        exact .falsehood
      · cases shown
        exact .truth
    | _ =>
      cases shown
      constructor
  · intro shown
    cases shown with
    | integer short => rw [keyText?_integer, if_pos short]
    | _ => rfl

theorem keyText?_eq_none_iff {key : Scalar} :
    key.keyText? = none ↔ ∃ n, key = .integer n ∧ 10 ^ 4300 ≤ n.natAbs := by
  cases key with
  | integer n =>
    rw [keyText?_integer]
    split
    · rename_i short
      refine iff_of_false nofun ?_
      rintro ⟨m, same, long⟩
      cases same
      exact absurd short (Nat.not_lt.2 long)
    · rename_i long
      exact iff_of_true rfl ⟨n, rfl, Nat.not_lt.1 long⟩
  | boolean value =>
    refine iff_of_false ?_ (by rintro ⟨n, same, -⟩; cases same)
    cases value <;> nofun
  | _ => exact iff_of_false (by nofun) (by rintro ⟨n, same, -⟩; cases same)

section Unknown

variable {keys : List Scalar} {texts : List CodePoints}

theorem UnknownTexts.known_of_nil (unknown : UnknownTexts keys texts) (none_ : texts = []) :
    ∀ key ∈ keys, ∃ name ∈ documentedKeys, key = .text (codes name) := by
  induction unknown with
  | nil => exact List.forall_mem_nil _
  | known listed _ ih => exact List.forall_mem_cons.2 ⟨listed, ih none_⟩
  | unknown => cases none_

theorem UnknownTexts.of_known
    (known : ∀ key ∈ keys, ∃ name ∈ documentedKeys, key = .text (codes name)) :
    UnknownTexts keys [] := by
  induction keys with
  | nil => exact .nil
  | cons key rest ih =>
    obtain ⟨listed, others⟩ := List.forall_mem_cons.1 known
    exact .known listed (ih others)

theorem UnknownTexts.not_long (unknown : UnknownTexts keys texts) {n : Int}
    (inside : .integer n ∈ keys) : n.natAbs < 10 ^ 4300 := by
  induction unknown with
  | nil => cases inside
  | known listed _ ih =>
    rcases List.mem_cons.1 inside with rfl | inside
    · obtain ⟨name, -, same⟩ := listed
      cases same
    · exact ih inside
  | unknown _ shown _ ih =>
    rcases List.mem_cons.1 inside with rfl | inside
    · cases shown with
      | integer short => exact short
    · exact ih inside

theorem UnknownTexts.unique {texts' : List CodePoints} (unknown : UnknownTexts keys texts)
    (again : UnknownTexts keys texts') : texts = texts' := by
  induction unknown generalizing texts' with
  | nil =>
    cases again
    rfl
  | known listed _ ih =>
    cases again with
    | known _ again => exact ih again
    | unknown none_ => exact absurd listed none_
  | unknown none_ shown _ ih =>
    cases again with
    | known listed => exact absurd listed none_
    | unknown _ shown' again =>
      have same := (keyText?_eq_some_iff.2 shown).symm.trans (keyText?_eq_some_iff.2 shown')
      rw [Option.some.inj same, ih again]

end Unknown

section Shape

variable {loader : Loader} {document : loader.Value}

theorem text_of_getElem? {items : List loader.Value} {texts : List CodePoints}
    (same : items.map loader.look = texts.map .text) {index : Nat} {item : loader.Value}
    (there : items[index]? = some item) :
    ∃ text, loader.look item = .text text ∧ texts[index]? = some text := by
  have shown := congrArg (·[index]?) same
  simp only [List.getElem?_map, there, Option.map_some] at shown
  obtain ⟨text, there, same⟩ := Option.map_eq_some_iff.1 shown.symm
  exact ⟨text, same.symm, there⟩

theorem Lists.items {value : loader.Value} {texts : List CodePoints} {items : List loader.Value}
    (lists : Lists loader value texts) (look : loader.look value = .list items) :
    items.map loader.look = texts.map .text := by
  obtain ⟨own, look', same⟩ := lists
  cases look.symm.trans look'
  exact same

theorem Lists.unique {value : loader.Value} {texts texts' : List CodePoints}
    (lists : Lists loader value texts) (again : Lists loader value texts') : texts = texts' := by
  obtain ⟨items, look, same⟩ := lists
  refine List.map_injective_iff.2 (fun a b equal => ?_) (same.symm.trans (again.items look))
  cases equal
  rfl

theorem Has.unique {key : String} {value value' : loader.Value}
    (has : Has loader document key value) (has' : Has loader document key value') :
    value = value' := by
  obtain ⟨mapping, look, inside⟩ := has
  obtain ⟨_, look', inside'⟩ := has'
  cases look.symm.trans look'
  exact mapping.eq_of_mem (Scalar.sameKey_text _) inside inside'

theorem Documented.not_long (documented : Documented loader document) :
    ¬ HasLongKey loader document := by
  rintro ⟨_, n, value, look, inside, -⟩
  cases documented with
  | nothing look' => cases look.symm.trans look'
  | mapping look' shaped =>
    cases look.symm.trans look'
    obtain ⟨⟨key, -, same⟩, -⟩ := shaped _ inside
    cases same

theorem Documented.texts (documented : Documented loader document) {key : String}
    {value : loader.Value} (has : Has loader document key value) :
    ∃ texts, Lists loader value texts := by
  obtain ⟨mapping, look, inside⟩ := has
  cases documented with
  | nothing look' => cases look.symm.trans look'
  | mapping look' shaped =>
    cases look.symm.trans look'
    exact (shaped _ inside).2

theorem Documented.clean_underKeys (documented : Documented loader document) :
    Clean (breachesUnderKeys loader document) := by
  intro breach inside
  rw [breachesUnderKeys, List.mem_flatMap] at inside
  obtain ⟨key, -, inside⟩ := inside
  rcases List.mem_cons.1 inside with rfl | inside
  · rintro _ _ ⟨has, noList⟩
    obtain ⟨_, items, look, -⟩ := documented.texts has
    exact noList _ look
  · cases List.mem_singleton.1 inside
    rintro _ _ ⟨has, look, there, noText⟩
    obtain ⟨texts, lists⟩ := documented.texts has
    obtain ⟨text, same, -⟩ := text_of_getElem? (lists.items look) there
    exact noText text same

theorem Documented.clean (documented : Documented loader document) :
    Clean (breaches loader document) := by
  have underKeys := documented.clean_underKeys
  refine Clean.append (Clean.append ?_ underKeys) (List.forall_mem_singleton.2 ?_)
  · refine List.forall_mem_cons.2 ⟨?_, List.forall_mem_singleton.2 ?_⟩
    · rintro _ _ ⟨noNull, noMapping⟩
      cases documented with
      | nothing look => exact noNull look
      | mapping look => exact noMapping _ look
    · rintro _ _ ⟨look, unknown, permuted, -, some_⟩
      cases documented with
      | nothing look' => cases look.symm.trans look'
      | mapping look' shaped =>
        cases look.symm.trans look'
        -- All keys are known, so no text shows an unknown one.
        have known := UnknownTexts.of_known (List.forall_mem_map.2 fun entry inside =>
          (shaped entry inside).1)
        rw [unknown.unique known] at permuted
        exact some_ permuted.eq_nil
  · rintro _ _ ⟨has, look, there, isId, none_⟩
    obtain ⟨ids, lists⟩ := documented.texts has
    obtain ⟨id, same, there⟩ := text_of_getElem? (lists.items look) there
    cases isId.symm.trans same
    obtain ⟨mapping, look', inside⟩ := has
    cases documented with
    | nothing look'' => cases look'.symm.trans look''
    | mapping look'' _ rules =>
      cases look'.symm.trans look''
      obtain ⟨rule, isRule⟩ := rules _ ids inside lists _ (List.mem_of_getElem? there)
      exact none_ rule isRule

theorem eq_of_breach {breach : Breach} (inside : breach ∈ breaches loader document) {index : Nat}
    {error other : Error} (broken : breach index error) (again : breach index other) :
    error = other := by
  have told {key : String}
      (inside : breach ∈ [NotList loader document key, NotText loader document key]) :
      error = other := by
    rcases List.mem_cons.1 inside with rfl | inside
    · cases broken
      cases again
      rfl
    · cases List.mem_singleton.1 inside
      cases broken
      cases again
      rfl
  rw [breaches, List.mem_append, List.mem_append, breachesUnderKeys, List.mem_flatMap] at inside
  rcases inside with (inside | ⟨key, -, inside⟩) | inside
  · rcases List.mem_cons.1 inside with rfl | inside
    · cases broken
      cases again
      rfl
    · cases List.mem_singleton.1 inside
      obtain ⟨look, unknown, permuted, ordered, -⟩ := broken
      obtain ⟨look', unknown', permuted', ordered', -⟩ := again
      cases look.symm.trans look'
      -- Both lists of names are the same texts in order, so they are equal.
      rw [unknown'.unique unknown] at permuted'
      have equal := (permuted.trans permuted'.symm).eq_of_pairwise
        (fun _ _ _ _ first second => List.le_antisymm (List.not_lt.1 first) (List.not_lt.1 second))
        ordered ordered'
      rw [equal]
  · exact told inside
  · cases List.mem_singleton.1 inside
    obtain ⟨has, look, there, isId, -⟩ := broken
    obtain ⟨has', look', there', isId', -⟩ := again
    cases has.unique has'
    cases look.symm.trans look'
    cases there.symm.trans there'
    cases isId.symm.trans isId'
    rfl

theorem documented_of_spelledBy {mapping : Mapping loader.Value} {settings : WideSettings}
    (look : loader.look document = .mapping mapping)
    (known : ∀ entry ∈ mapping.entries, ∃ key ∈ documentedKeys, entry.1 = .text (codes key))
    (spelled : SpelledBy loader mapping.entries settings) : Documented loader document := by
  have listed {key : String} {standard texts : List CodePoints} {value : loader.Value}
      (under : TextsUnder loader mapping.entries key standard texts)
      (inside : (.text (codes key), value) ∈ mapping.entries) : Lists loader value texts := by
    cases under with
    | given own lists => exact mapping.eq_of_mem (Scalar.sameKey_text _) inside own ▸ lists
    | absent none_ => exact absurd inside (none_ value)
  obtain ⟨included, excluded, disabled⟩ := spelled
  -- The known keys are those whose texts are spelled out, and what is switched off is a rule.
  refine .mapping look (fun entry inside => ⟨known entry inside, ?_⟩)
    fun value ids' inside lists id isId => ?_
  · obtain ⟨key, isKey, same⟩ := known entry inside
    obtain ⟨_, value⟩ := entry
    subst same
    have three : key = "include" ∨ key = "exclude" ∨ key = "disabled-rules" := by
      simpa [documentedKeys] using isKey
    rcases three with rfl | rfl | rfl
    · exact ⟨_, listed included inside⟩
    · exact ⟨_, listed excluded inside⟩
    · exact ⟨_, listed disabled inside⟩
  · cases lists.unique (listed disabled inside)
    obtain ⟨rule, -, isRule⟩ := List.mem_map.1 isId
    exact ⟨rule, isRule⟩

theorem TextsUnder.unique {mapping : Mapping loader.Value} {key : String}
    {standard texts texts' : List CodePoints}
    (under : TextsUnder loader mapping.entries key standard texts)
    (again : TextsUnder loader mapping.entries key standard texts') : texts = texts' := by
  cases under with
  | given inside lists =>
    cases again with
    | given inside' lists' =>
      cases mapping.eq_of_mem (Scalar.sameKey_text _) inside inside'
      exact lists.unique lists'
    | absent none_ => exact absurd inside (none_ _)
  | absent none_ =>
    cases again with
    | given inside => exact absurd inside (none_ _)
    | absent => rfl

theorem SpelledBy.unique {mapping : Mapping loader.Value} {settings other : WideSettings}
    (spelled : SpelledBy loader mapping.entries settings)
    (again : SpelledBy loader mapping.entries other) : settings = other := by
  obtain ⟨_, _, rules⟩ := settings
  obtain ⟨_, _, rules'⟩ := other
  obtain ⟨included, excluded, disabled⟩ := spelled
  obtain ⟨included', excluded', disabled'⟩ := again
  have same : rules = rules' := by
    refine List.map_injective_iff.2 (fun rule rule' named => ?_) (disabled.unique disabled')
    exact ruleName_injective (Text.codes_injective named)
  cases included.unique included'
  cases excluded.unique excluded'
  rw [same]

theorem Describes.unique {settings other : WideSettings}
    (describes : Describes loader document settings)
    (again : Describes loader document other) : settings = other := by
  cases describes with
  | nothing look spelled =>
    cases again with
    | nothing _ spelled' => exact @SpelledBy.unique loader .empty _ _ spelled spelled'
    | mapping look' => cases look.symm.trans look'
  | mapping look spelled =>
    cases again with
    | nothing look' => cases look.symm.trans look'
    | mapping look' spelled' =>
      cases look.symm.trans look'
      exact spelled.unique spelled'

end Shape

end ArchDiagram.Settings
