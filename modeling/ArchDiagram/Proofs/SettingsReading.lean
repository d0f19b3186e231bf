import ArchDiagram.Proofs.HexadecimalKeys
import ArchDiagram.Proofs.SettingsShape

/-!
Reading settings accepts the documents of the documented shape. Any other document is rejected with
the error of the first way in which it breaks the shape, unless an unknown key is an integer with so
many digits that no error can show it.
-/

namespace ArchDiagram.Settings

open ArchDiagram.Analysis (Rule)
open ArchDiagram.Text (CodePoints codes)
open ArchDiagram.Yaml (Loader Mapping Scalar)

/-- An answer to the question whether the shape is kept: a result, or the first error. -/
inductive Checks {α : Type} (breaches : List Breach) (fine : α → Prop) : Except Error α → Prop
  | ok {result : α} : Clean breaches → fine result → Checks breaches fine (.ok result)
  | error {error : Error} : FirstBreach breaches error → Checks breaches fine (.error error)

section Order

variable {first rest : List Breach}

/-- What is looked for later counts only if nothing is found before. -/
theorem Checks.bind {α β : Type} {fine : α → Prop} {fine' : β → Prop} {answer : Except Error α}
    {next : α → Except Error β} (checks : Checks first fine answer)
    (later : ∀ result, fine result → Checks rest fine' (next result)) :
    Checks (first ++ rest) fine' (answer >>= next) := by
  cases checks with
  | error broken => exact .error broken.append
  | @ok result clean good =>
    have answered := later result good
    change Checks (first ++ rest) fine' (next result)
    generalize next result = answer at answered
    cases answered with
    | ok clean' good' => exact .ok (clean.append clean') good'
    | error broken => exact .error (broken.behind clean)

end Order

theorem exists_of_bind {ε α β : Type} {answer : Except ε α} {next : α → Except ε β} {result : β}
    (ran : answer >>= next = .ok result) :
    ∃ found, answer = .ok found ∧ next found = .ok result := by
  cases answer with
  | error fault => cases ran
  | ok found => exact ⟨found, rfl, ran⟩

section Lists

variable {loader : Loader}

theorem valueOf?_of_some {α : Type} {key : String} {entries : List (Scalar × α)} {value : α}
    (found : valueOf? key entries = some value) : (.text (codes key), value) ∈ entries := by
  rw [valueOf?, Option.map_eq_some_iff] at found
  obtain ⟨⟨name, content⟩, inside, rfl⟩ := found
  have named := List.find?_some inside
  cases name with
  | text name =>
    cases of_decide_eq_true named
    exact List.mem_of_find?_eq_some inside
  | _ => cases named

theorem not_mem_of_valueOf? {α : Type} {key : String} {entries : List (Scalar × α)}
    (absent : valueOf? key entries = none) (value : α) : (.text (codes key), value) ∉ entries := by
  rw [valueOf?, Option.map_eq_none_iff, List.find?_eq_none] at absent
  intro inside
  exact absent _ inside (decide_eq_true rfl)

theorem textsFrom_cons (key : String) (start : Nat) (item : loader.Value)
    (rest : List loader.Value) :
    (∃ text, loader.look item = .text text ∧ textsFrom loader key start (item :: rest) =
      (textsFrom loader key (start + 1) rest).map (text :: ·)) ∨
    (∀ text, loader.look item ≠ .text text) ∧
      textsFrom loader key start (item :: rest) = .error (.notText key start) := by
  rw [textsFrom]
  cases look : loader.look item with
  | scalar value =>
    cases value with
    | text value => exact .inl ⟨value, rfl, rfl⟩
    | _ => exact .inr ⟨fun _ => nofun, rfl⟩
  | _ => exact .inr ⟨fun _ => nofun, rfl⟩

theorem texts_of_textsFrom {key : String} {start : Nat} {items : List loader.Value}
    {texts : List CodePoints} (read : textsFrom loader key start items = .ok texts) :
    items.map loader.look = texts.map .text := by
  induction items generalizing start texts with
  | nil =>
    cases read
    rfl
  | cons item rest ih =>
    rcases textsFrom_cons key start item rest with ⟨text, look, step⟩ | ⟨-, step⟩
    · rw [step] at read
      cases others : textsFrom loader key (start + 1) rest with
      | error error =>
        rw [others] at read
        cases read
      | ok more =>
        rw [others] at read
        cases read
        rw [List.map_cons, look, ih others, List.map_cons]
    · rw [step] at read
      cases read

theorem first_of_textsFrom {key : String} {start : Nat} {items : List loader.Value} {error : Error}
    (failed : textsFrom loader key start items = .error error) :
    ∃ (good : List loader.Value) (item : loader.Value) (rest : List loader.Value),
      items = good ++ item :: rest ∧ (∀ other ∈ good, ∃ text, loader.look other = .text text) ∧
      (∀ text, loader.look item ≠ .text text) ∧ error = .notText key (start + good.length) := by
  induction items generalizing start with
  | nil => cases failed
  | cons item rest ih =>
    rcases textsFrom_cons key start item rest with ⟨text, look, step⟩ | ⟨noText, step⟩
    · rw [step] at failed
      cases others : textsFrom loader key (start + 1) rest with
      | ok texts =>
        rw [others] at failed
        cases failed
      | error other =>
        rw [others] at failed
        cases failed
        obtain ⟨good, bad, more, rfl, fine, noText, rfl⟩ := ih others
        refine ⟨item :: good, bad, more, rfl, List.forall_mem_cons.2 ⟨⟨text, look⟩, fine⟩, noText,
          ?_⟩
        -- The item that was passed counts for the number of the bad one.
        rw [List.length_cons, Nat.add_assoc, Nat.add_comm 1]
    · rw [step] at failed
      cases failed
      exact ⟨[], item, rest, rfl, nofun, noText, rfl⟩

theorem length_le_of_getElem? {α : Type} {good rest : List α} {isBad : α → Prop}
    (fine : ∀ x ∈ good, ¬ isBad x) {index : Nat} {found : α}
    (there : (good ++ rest)[index]? = some found) (bad : isBad found) : good.length ≤ index := by
  by_contra sooner
  rw [List.getElem?_append_left (Nat.lt_of_not_le sooner)] at there
  exact fine found (List.mem_of_getElem? there) bad

end Lists

section Keys

variable {loader : Loader} {document : loader.Value} {mapping : Mapping loader.Value}
  (look : loader.look document = .mapping mapping)

include look

theorem has_of_mem {key : String} {value : loader.Value}
    (inside : (.text (codes key), value) ∈ mapping.entries) : Has loader document key value :=
  ⟨mapping, look, inside⟩

theorem mem_of_has {key : String} {value : loader.Value} (has : Has loader document key value) :
    (.text (codes key), value) ∈ mapping.entries := by
  obtain ⟨_, look', inside⟩ := has
  cases look.symm.trans look'
  exact inside

theorem checks_textList (key : String) (standard : List CodePoints) :
    Checks [NotList loader document key, NotText loader document key]
      (TextsUnder loader mapping.entries key standard)
      (textList loader key standard mapping.entries) := by
  unfold textList
  cases found : valueOf? key mapping.entries with
  -- Without the key there is nothing to break, and the standard texts hold.
  | none =>
    have absent := not_mem_of_valueOf? found
    refine .ok (List.forall_mem_cons.2 ⟨?_, List.forall_mem_singleton.2 ?_⟩) (.absent absent)
    · rintro _ _ ⟨has, -⟩
      exact absent _ (mem_of_has look has)
    · rintro _ _ ⟨has, -, -, -⟩
      exact absent _ (mem_of_has look has)
  | some value =>
    have inside := valueOf?_of_some found
    have own := has_of_mem look inside
    dsimp only
    cases kind : loader.look value with
    | list items =>
      have isList : ∀ index error, ¬ NotList loader document key index error := by
        rintro _ _ ⟨has, noList⟩
        cases own.unique has
        exact noList items kind
      change Checks _ _ (textsFrom loader key 0 items)
      cases read : textsFrom loader key 0 items with
      | ok texts =>
        have same := texts_of_textsFrom read
        refine .ok (List.forall_mem_cons.2 ⟨isList, List.forall_mem_singleton.2 ?_⟩)
          (.given inside ⟨items, kind, same⟩)
        rintro _ _ ⟨has, kind', there, noText⟩
        cases own.unique has
        cases kind.symm.trans kind'
        obtain ⟨text, isText, -⟩ := text_of_getElem? same there
        exact noText text isText
      | error error =>
        obtain ⟨good, item, rest, rfl, fine, noText, rfl⟩ := first_of_textsFrom read
        have here : (good ++ item :: rest)[good.length]? = some item := by simp
        rw [Nat.zero_add]
        refine .error (.later isList (.here (.mk own kind here noText) ?_))
        rintro _ _ ⟨has, kind', there, noText'⟩
        cases own.unique has
        cases kind.symm.trans kind'
        have fine' : ∀ other ∈ good, ¬ ∀ text, loader.look other ≠ .text text :=
          fun other there none_ => (fine other there).elim none_
        exact length_le_of_getElem? fine' there noText'
    | _ =>
      refine .error (.here (.mk own fun items same => ?_) fun _ _ _ => Nat.zero_le _)
      cases kind.symm.trans same

omit look

theorem ruleOf_eq_ok_iff {id : CodePoints} {rule : Rule} :
    ruleOf id = .ok rule ↔ codes (ruleName rule) = id := by
  rw [ruleName_eq, ruleOf]
  cases named : (Text.string? id).bind Rule.ofId? with
  | none =>
    refine iff_of_false nofun fun same => ?_
    rw [Text.string?_eq_some_iff.2 same, Option.bind_some, Rule.ofId?_eq_some_iff.2 rfl] at named
    cases named
  | some other =>
    obtain ⟨text, isText, isRule⟩ := Option.bind_eq_some_iff.1 named
    cases Text.string?_eq_some_iff.1 isText
    cases Rule.ofId?_eq_some_iff.1 isRule
    constructor
    · rintro ⟨⟩
      rfl
    · intro same
      rw [Rule.eq_of_id_eq (Text.codes_injective same)]

theorem ruleOf_eq_error {id : CodePoints} {error : Error} (failed : ruleOf id = .error error) :
    (∀ rule : Rule, codes (ruleName rule) ≠ id) ∧ error = .unknownRule id := by
  refine ⟨fun rule same => ?_, ?_⟩
  · cases failed.symm.trans (ruleOf_eq_ok_iff.2 same)
  · rw [ruleOf] at failed
    split at failed
    · cases failed
    · exact (Except.error.inj failed).symm

theorem rules_of_mapM {ids : List CodePoints} {rules : List Rule}
    (known : ids.mapM ruleOf = .ok rules) : rules.map (codes <| ruleName ·) = ids := by
  induction ids generalizing rules with
  | nil =>
    cases known
    rfl
  | cons id rest ih =>
    rw [List.mapM_cons] at known
    obtain ⟨rule, isRule, behind⟩ := exists_of_bind known
    obtain ⟨more, others, same⟩ := exists_of_bind behind
    cases same
    rw [List.map_cons, ih others, ruleOf_eq_ok_iff.1 isRule]

theorem first_of_mapM {ids : List CodePoints} {error : Error}
    (failed : ids.mapM ruleOf = .error error) :
    ∃ (good : List CodePoints) (id : CodePoints) (rest : List CodePoints),
      ids = good ++ id :: rest ∧
      (∀ other ∈ good, ∃ rule : Rule, codes (ruleName rule) = other) ∧
      (∀ rule : Rule, codes (ruleName rule) ≠ id) ∧ error = .unknownRule id := by
  -- Induction on the list, as names are looked up until one is unknown.
  induction ids with
  | nil => cases failed
  | cons id rest ih =>
    rw [List.mapM_cons] at failed
    cases named : ruleOf id with
    | error error' =>
      rw [named] at failed
      cases failed
      obtain ⟨none_, same⟩ := ruleOf_eq_error named
      exact ⟨[], id, rest, rfl, nofun, none_, same⟩
    | ok rule =>
      rw [named] at failed
      cases known : rest.mapM ruleOf with
      | ok rules =>
        rw [known] at failed
        cases failed
      | error error' =>
        rw [known] at failed
        cases failed
        obtain ⟨good, bad, more, rfl, fine, none_, same⟩ := ih known
        exact ⟨id :: good, bad, more, rfl,
          List.forall_mem_cons.2 ⟨⟨rule, ruleOf_eq_ok_iff.1 named⟩, fine⟩, none_, same⟩

include look

theorem checks_rules {ids : List CodePoints}
    (under : TextsUnder loader mapping.entries "disabled-rules" [] ids) :
    Checks [UnknownRule loader document] (fun rules => rules.map (codes <| ruleName ·) = ids)
      (ids.mapM ruleOf) := by
  cases under with
  | absent absent =>
    refine .ok (List.forall_mem_singleton.2 ?_) rfl
    rintro _ _ ⟨has, -, -, -, -⟩
    exact absent _ (mem_of_has look has)
  | @given value ids inside lists =>
    have own := has_of_mem look inside
    cases known : ids.mapM ruleOf with
    | ok rules =>
      have same := rules_of_mapM known
      refine .ok (List.forall_mem_singleton.2 ?_) same
      rintro index _ ⟨has, kind, there, isId, none_⟩
      cases own.unique has
      obtain ⟨id, isId', there⟩ := text_of_getElem? (lists.items kind) there
      cases isId.symm.trans isId'
      rw [← same, List.getElem?_map, Option.map_eq_some_iff] at there
      obtain ⟨rule, -, isRule⟩ := there
      exact none_ rule isRule
    | error error =>
      obtain ⟨good, id, rest, rfl, fine, none_, rfl⟩ := first_of_mapM known
      obtain ⟨items, kind, same⟩ := lists
      -- The item that is no rule stands where its name does.
      have named := congrArg (·[good.length]?) same
      simp only [List.getElem?_map, List.getElem?_append_right (Nat.le_refl _), Nat.sub_self,
        List.getElem?_cons_zero, Option.map_some] at named
      obtain ⟨item, there, isId⟩ := Option.map_eq_some_iff.1 named
      refine .error (.here (.mk own kind there isId none_) ?_)
      rintro index _ ⟨has, kind', there', isId', none_'⟩
      cases own.unique has
      cases kind.symm.trans kind'
      obtain ⟨id', isId'', there''⟩ := text_of_getElem? same there'
      cases isId'.symm.trans isId''
      have fine' : ∀ other ∈ good, ¬ ∀ rule : Rule, codes (ruleName rule) ≠ other :=
        fun other there none_ => (fine other there).elim none_
      exact length_le_of_getElem? fine' there'' none_'

theorem checks_ofKnown : Checks (breachesUnderKeys loader document ++ [UnknownRule loader document])
    (SpelledBy loader mapping.entries) (ofKnown loader mapping.entries) := by
  have inOrder : breachesUnderKeys loader document ++ [UnknownRule loader document] =
      [NotList loader document "include", NotText loader document "include"] ++
      ([NotList loader document "exclude", NotText loader document "exclude"] ++
      ([NotList loader document "disabled-rules", NotText loader document "disabled-rules"] ++
      ([UnknownRule loader document] ++ []))) := rfl
  rw [inOrder]
  refine (checks_textList look "include" _).bind fun includePatterns included => ?_
  refine (checks_textList look "exclude" _).bind fun excludedNames excluded => ?_
  refine (checks_textList look "disabled-rules" _).bind fun ids under => ?_
  refine (checks_rules look under).bind fun rules same => ?_
  exact .ok (List.forall_mem_nil _) ⟨included, excluded, same ▸ under⟩

end Keys

theorem unknownTexts_or (isKnown : Scalar → Bool)
    (known : ∀ key, isKnown key = true ↔ ∃ name ∈ documentedKeys, key = .text (codes name))
    (keys : List Scalar) :
    (∃ texts, (keys.filter (!isKnown ·)).mapM keyText = .ok texts ∧ UnknownTexts keys texts) ∨
    (keys.filter (!isKnown ·)).mapM keyText = .error .keyTooLong ∧
      ∃ n, .integer n ∈ keys ∧ 10 ^ 4300 ≤ n.natAbs := by
  induction keys with
  | nil => exact .inl ⟨[], rfl, .nil⟩
  | cons key rest ih =>
    have later (long : ∃ n, .integer n ∈ rest ∧ 10 ^ 4300 ≤ n.natAbs) :
        ∃ n, .integer n ∈ key :: rest ∧ 10 ^ 4300 ≤ n.natAbs :=
      long.imp fun _ => And.imp_left (.tail _)
    by_cases isOne : isKnown key = true
    · rw [List.filter_cons_of_neg (by simpa using isOne)]
      rcases ih with ⟨texts, shown, unknown⟩ | ⟨failed, long⟩
      · exact .inl ⟨texts, shown, .known ((known key).1 isOne) unknown⟩
      · exact .inr ⟨failed, later long⟩
    · rw [List.filter_cons_of_pos (by simpa using isOne), List.mapM_cons]
      cases own : key.keyText? with
      | none =>
        -- A key that cannot be shown ends the reading, whatever is behind it.
        obtain ⟨n, rfl, long⟩ := keyText?_eq_none_iff.1 own
        refine .inr ⟨?_, n, List.mem_cons_self, long⟩
        rw [keyText, own]
        rfl
      | some text =>
        rw [keyText, own]
        rcases ih with ⟨texts, shown, unknown⟩ | ⟨failed, long⟩
        · rw [shown]
          exact .inl ⟨_, rfl, .unknown (mt (known key).2 isOne) (keyText?_eq_some_iff.1 own)
            unknown⟩
        · rw [failed]
          exact .inr ⟨rfl, later long⟩

theorem unknownKeys_eq (keys : List Scalar) : ∃ isKnown : Scalar → Bool,
    (∀ key, isKnown key = true ↔ ∃ name ∈ documentedKeys, key = .text (codes name)) ∧
    unknownKeys keys =
      ((keys.filter (!isKnown ·)).mapM keyText).map (·.mergeSort Text.le) := by
  refine ⟨_, fun key => ?_, rfl⟩
  cases key with
  | text key =>
    refine List.any_eq_true.trans (exists_congr fun name => and_congr_right fun _ => ?_)
    rw [decide_eq_true_eq, Scalar.text.injEq, eq_comm]
  | _ => exact iff_of_false nofun (by rintro ⟨_, -, same⟩; cases same)

theorem unknownKeys_or (keys : List Scalar) :
    (∃ names texts, unknownKeys keys = .ok names ∧ UnknownTexts keys texts ∧
      names.Perm texts ∧ names.Pairwise fun a b => ¬ b < a) ∨
    unknownKeys keys = .error .keyTooLong ∧ ∃ n, .integer n ∈ keys ∧ 10 ^ 4300 ≤ n.natAbs := by
  have ordered (texts : List CodePoints) :
      (texts.mergeSort Text.le).Pairwise fun a b => ¬ b < a := by
    have le_iff {a b : CodePoints} : Text.le a b = true ↔ List.instLE.le a b :=
      (Text.le_iff a b).trans List.not_lt
    refine (List.pairwise_mergeSort (fun a b c first second => ?_) (fun a b => ?_) texts).imp
      (Text.le_iff _ _).1
    · exact le_iff.2 (List.le_trans (le_iff.1 first) (le_iff.1 second))
    · rw [Bool.or_eq_true, le_iff, le_iff]
      exact List.le_total a b
  obtain ⟨isKnown, known, same⟩ := unknownKeys_eq keys
  rw [same]
  rcases unknownTexts_or isKnown known keys with ⟨texts, shown, unknown⟩ | ⟨failed, long⟩
  · exact .inl ⟨texts.mergeSort Text.le, texts, congrArg (Except.map _) shown, unknown,
      List.mergeSort_perm _ _, ordered texts⟩
  · exact .inr ⟨congrArg (Except.map _) failed, long⟩

section Shape

variable {loader : Loader} {document : loader.Value}

inductive Answered (loader : Loader) (document : loader.Value) :
    Except Failure WideSettings → Prop
  | accepted {settings : WideSettings} : Documented loader document →
      Describes loader document settings → Answered loader document (.ok settings)
  | rejected {error : Error} : ¬ HasLongKey loader document →
      FirstBreach (breaches loader document) error →
      Answered loader document (.error (.rejected error))
  | keyTooLong : HasLongKey loader document → Answered loader document (.error .keyTooLong)

theorem answered_ofEntries {mapping : Mapping loader.Value}
    (look : loader.look document = .mapping mapping) :
    Answered loader document (ofEntries loader mapping.entries) := by
  have isMapping : ∀ index error, ¬ NotMapping loader document index error := by
    rintro _ _ ⟨-, noMapping⟩
    exact noMapping mapping look
  unfold ofEntries
  rcases unknownKeys_or (mapping.entries.map Prod.fst) with
    ⟨names, texts, shown, unknown, permuted, ordered⟩ | ⟨failed, n, inside, long⟩
  · have short : ¬ HasLongKey loader document := by
      rintro ⟨_, n, value, look', inside, long⟩
      cases look.symm.trans look'
      exact absurd (unknown.not_long (List.mem_map_of_mem inside)) (Nat.not_lt.2 long)
    rw [shown]
    cases names with
    | cons name more =>
      refine .rejected short (.later isMapping (.here ?_ fun _ _ _ => Nat.zero_le _))
      exact .mk look unknown permuted ordered nofun
    | nil =>
      -- All keys are known, so what is wrong is wrong under one of them.
      have none_ : texts = [] := permuted.symm.eq_nil
      change Answered loader document ((ofKnown loader mapping.entries).mapError .rejected)
      have checks := checks_ofKnown look
      generalize ofKnown loader mapping.entries = answer at checks
      cases checks with
      | ok clean spelled =>
        have known := List.forall_mem_map.1 (unknown.known_of_nil none_)
        exact .accepted (documented_of_spelledBy look known spelled) (.mapping look spelled)
      | error broken =>
        refine .rejected short (.later isMapping (.later ?_ broken))
        rintro _ _ ⟨look', unknown', permuted', -, some_⟩
        cases look.symm.trans look'
        rw [unknown'.unique unknown, none_] at permuted'
        exact some_ permuted'.eq_nil
  · rw [failed]
    obtain ⟨⟨_, value⟩, inside, rfl⟩ := List.mem_map.1 inside
    exact .keyTooLong ⟨mapping, n, value, look, inside, long⟩

theorem answered_ofValue (loader : Loader) (document : loader.Value) :
    Answered loader document (ofValue loader document) := by
  have noMapping (noNull : loader.look document ≠ .scalar .null)
      (noMapping : ∀ mapping, loader.look document ≠ .mapping mapping) :
      Answered loader document (.error (.rejected .notMapping)) := by
    refine .rejected ?_ (.here (.mk noNull noMapping) fun _ _ _ => Nat.zero_le _)
    rintro ⟨mapping, _, _, look, -⟩
    exact noMapping mapping look
  cases look : loader.look document with
  | mapping mapping =>
    rw [ofValue, look]
    exact answered_ofEntries look
  | scalar value =>
    rw [ofValue, look]
    cases value with
    -- An empty document stands for settings in which no key is given.
    | null =>
      have absent (key : String) (standard : List CodePoints) :
          TextsUnder loader [] key standard standard := .absent fun _ => List.not_mem_nil
      exact .accepted (.nothing look) (.nothing look ⟨absent _ _, absent _ _, absent _ _⟩)
    | _ => exact noMapping (by rw [look]; nofun) (by rw [look]; nofun)
  | _ =>
    rw [ofValue, look]
    exact noMapping (by rw [look]; nofun) (by rw [look]; nofun)

/-- A document is answered in one way: its shape is kept, or broken at some first place, or not
looked at, because a key cannot be shown. -/
theorem Answered.unique {answer other : Except Failure WideSettings}
    (answered : Answered loader document answer) (again : Answered loader document other) :
    answer = other := by
  cases answered with
  | accepted documented describes =>
    cases again with
    | accepted _ describes' => rw [describes.unique describes']
    | rejected _ broken => exact absurd documented.clean broken.not_clean
    | keyTooLong long => exact absurd long documented.not_long
  | rejected short broken =>
    cases again with
    | accepted documented => exact absurd documented.clean broken.not_clean
    | rejected _ broken' => rw [broken.unique (fun _ inside => eq_of_breach inside) broken']
    | keyTooLong long => exact absurd long short
  | keyTooLong long =>
    cases again with
    | accepted documented => exact absurd long documented.not_long
    | rejected short => exact absurd long short
    | keyTooLong => rfl

variable {text : String}

theorem read_eq_iff_answered (loaded : loader.load text = .ok document)
    {answer : Except Failure WideSettings} :
    read loader text = answer ↔ Answered loader document answer := by
  have answered := answered_ofValue loader document
  rw [read, loaded]
  exact ⟨fun same => same ▸ answered, answered.unique⟩

theorem read_eq_ok_iff {settings : WideSettings} : read loader text = .ok settings ↔
    ∃ document, loader.load text = .ok document ∧ Documented loader document ∧
      Describes loader document settings := by
  cases loaded : loader.load text with
  | error fault =>
    rw [read, loaded]
    refine iff_of_false ?_ nofun
    cases fault <;> nofun
  | ok document =>
    rw [read_eq_iff_answered loaded]
    constructor
    · intro answered
      cases answered with
      | accepted documented describes => exact ⟨document, rfl, documented, describes⟩
    · rintro ⟨_, same, documented, describes⟩
      cases same
      exact .accepted documented describes

theorem read_eq_rejected_iff {error : Error} : read loader text = .error (.rejected error) ↔
    (∃ explanation?, loader.load text = .error (.malformed explanation?) ∧
      error = .malformed explanation?) ∨
    ∃ document, loader.load text = .ok document ∧ ¬ HasLongKey loader document ∧
      FirstBreach (breaches loader document) error := by
  cases loaded : loader.load text with
  | error fault =>
    rw [read, loaded]
    cases fault with
    | malformed explanation? =>
      refine ⟨fun same => .inl ⟨explanation?, rfl, ?_⟩, ?_⟩
      · cases same
        rfl
      · rintro (⟨_, same, rfl⟩ | ⟨_, absurd_, -⟩)
        · cases same
          rfl
        · cases absurd_
    | _ =>
      refine iff_of_false nofun ?_
      rintro (⟨_, same, -⟩ | ⟨_, absurd_, -⟩)
      · cases same
      · cases absurd_
  | ok document =>
    rw [read_eq_iff_answered loaded]
    constructor
    · intro answered
      cases answered with
      | rejected short broken => exact .inr ⟨document, rfl, short, broken⟩
    · rintro (⟨_, absurd_, -⟩ | ⟨_, same, short, broken⟩)
      · cases absurd_
      · cases same
        exact .rejected short broken

theorem read_eq_keyTooLong_iff : read loader text = .error .keyTooLong ↔
    ∃ document, loader.load text = .ok document ∧ HasLongKey loader document := by
  cases loaded : loader.load text with
  | error fault =>
    rw [read, loaded]
    refine iff_of_false ?_ nofun
    cases fault <;> nofun
  | ok document =>
    rw [read_eq_iff_answered loaded]
    constructor
    · intro answered
      cases answered with
      | keyTooLong long => exact ⟨document, rfl, long⟩
    · rintro ⟨_, same, long⟩
      cases same
      exact .keyTooLong long

end Shape

/-- A text that has a value is read as settings if and only if the value has the documented shape,
and then they are the settings that it describes. Otherwise it is rejected with the error of the
first way in which the shape is broken, unless a key is too long to be shown. -/
theorem read_exact {loader : Loader} {text : String} {document : loader.Value}
    (loaded : loader.load text = .ok document) :
    ((∃ settings, read loader text = .ok settings) ↔ Documented loader document) ∧
    (∀ settings, read loader text = .ok settings → Describes loader document settings) ∧
    ∀ failure, read loader text = .error failure ↔
      (HasLongKey loader document ∧ failure = .keyTooLong) ∨
      (¬ HasLongKey loader document ∧ ∃ error, FirstBreach (breaches loader document) error ∧
        failure = .rejected error) := by
  simp only [read_eq_iff_answered loaded]
  refine ⟨⟨?_, fun documented => ?_⟩, fun settings answered => ?_, fun failure => ⟨?_, ?_⟩⟩
  · rintro ⟨settings, answered⟩
    cases answered with
    | accepted documented => exact documented
  · -- Some answer there is, and no other one fits the documented shape.
    have answered := answered_ofValue loader document
    generalize ofValue loader document = answer at answered
    cases answered with
    | accepted _ describes => exact ⟨_, .accepted documented describes⟩
    | rejected _ broken => exact absurd documented.clean broken.not_clean
    | keyTooLong long => exact absurd long documented.not_long
  · cases answered with
    | accepted _ describes => exact describes
  · intro answered
    cases answered with
    | rejected short broken => exact .inr ⟨short, _, broken, rfl⟩
    | keyTooLong long => exact .inl ⟨long, rfl⟩
  · rintro (⟨long, rfl⟩ | ⟨short, error, broken, rfl⟩)
    · exact .keyTooLong long
    · exact .rejected short broken

/-- What is in a list counts before the names of rules, whichever is written first. -/
theorem firstBreach_crowded : ∃ document,
    Loader.standard.load "disabled-rules: [SS-9, SS-99]\nexclude: [a, 3]\n" = .ok document ∧
    FirstBreach (breaches .standard document) (.notText "exclude" 1) := by
  have rejected : read .standard "disabled-rules: [SS-9, SS-99]\nexclude: [a, 3]\n" =
      .error (.rejected (.notText "exclude" 1)) := by decide +kernel
  cases loaded : Loader.standard.load "disabled-rules: [SS-9, SS-99]\nexclude: [a, 3]\n" with
  | error fault =>
    rw [read, loaded] at rejected
    cases fault <;> cases rejected
  | ok document =>
    refine ⟨document, rfl, ?_⟩
    rcases ((read_exact loaded).2.2 _).1 rejected with ⟨-, tooLong⟩ | ⟨-, error, broken, same⟩
    · cases tooLong
    · cases same
      exact broken

theorem read_keyDocument {digits : List Char} (hexadecimal : Yaml.Hexadecimal digits) {size : Nat}
    (spelled : Decimal.naturalInBase? 16 digits = some size) (long : 10 ^ 4300 ≤ size) :
    (∃ document, Loader.standard.load (String.ofList (Yaml.keyDocument digits)) = .ok document) ∧
    read .standard (String.ofList (Yaml.keyDocument digits)) = .error .keyTooLong := by
  obtain ⟨document, value, loaded, look⟩ := Yaml.load_keyDocument hexadecimal spelled
  exact ⟨⟨document, loaded⟩, read_eq_keyTooLong_iff.2
    ⟨document, loaded, _, _, value, look, List.mem_singleton_self _, long⟩⟩

theorem read_power (count : Nat) (long : 10 ^ 4300 ≤ 16 ^ count) :
    let text := String.ofList (Yaml.keyDocument ('1' :: List.replicate count '0'))
    (∃ document, Loader.standard.load text = .ok document) ∧
      read .standard text = .error .keyTooLong := by
  have hexadecimal : Yaml.Hexadecimal ('1' :: List.replicate count '0') := by
    refine List.forall_mem_cons.2 ⟨by decide, fun c inside => ?_⟩
    rw [List.eq_of_mem_replicate inside]
    decide
  exact read_keyDocument hexadecimal (Yaml.naturalInBase?_power count) long

/-- Not every document that breaks the shape is rejected with an error. -/
theorem not_read_rejected : ¬ ∀ (loader : Loader) (text : String) (document : loader.Value)
    (failure : Failure), loader.load text = .ok document → read loader text = .error failure →
    ∃ error, FirstBreach (breaches loader document) error ∧ failure = .rejected error := by
  intro claim
  obtain ⟨⟨document, loaded⟩, failed⟩ := read_power 3572 (by decide +kernel)
  obtain ⟨error, -, same⟩ := claim _ _ _ _ loaded failed
  cases same

end ArchDiagram.Settings
