import ArchDiagram.Proofs.Shapes

/-!
Every reader builds what has its shape, on all the ways that recovery takes.
-/

namespace ArchDiagram

open Syntax (relationKeys)

namespace OrderedMap

theorem mem_keys_ofList {α : Type} (writes : List (String × α)) (key : String) :
    key ∈ (ofList writes).keys ↔ key ∈ writes.map Prod.fst := by
  rw [keys_ofList, Analysis.mem_map_firstsBy]

end OrderedMap

theorem keyed_ofList {writes : List (String × String)} (names : ∀ write ∈ writes, IsNameText write.1) :
    Keyed (.ofList writes) where
  names key member := by
    rw [OrderedMap.mem_keys_ofList] at member
    obtain ⟨write, inside, rfl⟩ := List.mem_map.1 member
    exact names write inside
  distinct := OrderedMap.nodup_keys_ofList writes

namespace Syntax

section Readers

variable {missing : Prop}

theorem builds_param (budget : Nat) :
    Builds missing (param budget) fun decl => NamedOr missing IsNameText decl.name := by
  refine .current_bind fun first => .bind builds_expectName fun name => ?_
  refine .after (fun _ => .discard (outcome_expect (by simp))) fun _ => ?_
  refine .after (outcome_typeExpr budget) fun type => .spanned fun span => ?_
  exact fun named => named

theorem builds_params (budget : Nat) : Builds missing (params budget) fun decls =>
    ∀ decl ∈ decls, NamedOr missing IsNameText decl.name :=
  .after (fun _ => outcome_isAt) fun _ => .ite (fun _ => .pure (by simp)) fun _ =>
    (builds_param budget).separatedByCommas

section Rest

variable {budget : Nat} {first : Token} {visibility : VisibilityMark} {words : List Modifier}
  {name : String} {kind : EntityKind}

theorem builds_fieldRest (named : IsMemberName name) :
    Builds missing (fieldRest budget first visibility words name) fun decl =>
      (Member.field decl).Shaped missing kind := by
  refine .after (fun _ => .discard (outcome_expect (by simp))) fun _ => ?_
  refine .after (outcome_typeExpr budget) fun type => .after outcome_defaultValue fun value => ?_
  refine .after (fun _ => .discard (outcome_accept (by simp))) fun _ => .spanned fun span => ?_
  exact .field named

theorem builds_methodRest (named : IsMemberName name) :
    Builds missing (methodRest budget first visibility words name) fun decl =>
      (Member.method decl).Shaped missing kind := by
  refine .after (fun _ => .discard (outcome_expect (by simp))) fun _ => ?_
  refine .bind (builds_params budget) fun params => ?_
  refine .after (fun _ => .discard (outcome_expect (by simp))) fun _ => ?_
  refine .after (fun _ => .discard (outcome_expect (by simp))) fun _ => ?_
  refine .after (outcome_typeExpr budget) fun type => ?_
  refine .after (fun _ => .discard (outcome_accept (by simp))) fun _ => .spanned fun span => ?_
  exact fun given => .method named given

end Rest

theorem builds_fieldOrMethod (budget : Nat) (body kind : EntityKind) :
    Builds missing (fieldOrMethod budget body) fun found =>
      ∀ member ∈ found, member.Shaped missing kind := by
  refine .current_bind fun first => .ite (fun _ => ?_) fun _ =>
    .after (fun _ => outcome_skipUnexpected _) fun _ => .pure (by simp)
  -- A keyword that is a modifier would have been taken before the name.
  refine .after outcome_visibility fun visibility => .behind_modifiers fun words name named => ?_
  refine .ite (fun _ => .pure (by simp)) fun some_ => .after (fun _ => outcome_isAt) fun _ => ?_
  refine .ite (fun _ => ?_) fun _ => ?_
  · exact .wrapped (builds_methodRest (named some_)) fun _ shaped => shaped
  · exact .wrapped (builds_fieldRest (named some_)) fun _ shaped => shaped

theorem builds_value {c : Cursor} (tokens : ∀ token ∈ c.rest, Worded token)
    (value : isAtValue c = true) : Ensures valueDecl c fun decl _ => IsMemberName decl.name := by
  simp only [isAtValue, Bool.and_eq_true, Bool.not_eq_true', decide_eq_true_eq] at value
  obtain ⟨⟨⟨named, other⟩, -⟩, -⟩ := value
  have worded := known_current tokens (ne_end_of_isName named)
  refine .bind ensures_advance fun token d _ taken => ?_
  obtain ⟨rfl, rfl⟩ := taken
  exact .of_run rfl .refl (worded.isMemberName named other)

theorem builds_enumerationMember (budget : Nat) : Builds missing (enumerationMember budget)
    fun found => ∀ member ∈ found, member.Shaped missing .enumeration := by
  refine .after (fun _ => outcome_accept (by simp)) fun _ => .ite (fun _ => .pure (by simp))
    fun _ => ?_
  intro c tokens
  refine .get_bind <| .ite (fun value => ?_) fun _ => builds_fieldOrMethod budget _ _ tokens
  refine .bind (builds_value tokens value) fun decl d _ named => .pure fun _ => ?_
  simpa using Member.Shaped.value rfl named

theorem builds_member (budget : Nat) (kind : EntityKind) : Builds missing (member budget kind)
    fun found => ∀ member ∈ found, member.Shaped missing kind := by
  refine .after (fun _ => outcome_accept (by simp)) fun _ => .ite (fun _ => .pure (by simp))
    fun _ => .ite (fun enumeration => ?_) fun _ => builds_fieldOrMethod budget kind kind
  subst enumeration
  exact builds_enumerationMember budget

theorem builds_members (budget : Nat) (kind : EntityKind) : Builds missing (members budget kind)
    fun found => ∀ member ∈ found, member.Shaped missing kind := by
  refine .after (fun _ => outcome_accept (by simp)) fun _ => .ite (fun _ => ?_)
    fun _ => .pure (by simp)
  refine .bind (builds_member budget kind).many fun found => ?_
  exact .after (fun _ => .discard (outcome_expect (by simp))) fun _ => .pure fun shaped => shaped

theorem builds_stereotype : Builds missing stereotype fun found =>
    ∀ name ∈ found, NamedOr missing IsIdentifier name := by
  refine .after (fun _ => outcome_accept (by simp)) fun _ => .ite (fun _ => ?_)
    fun _ => .pure (by simp)
  refine .bind builds_expectIdentifier fun name => .after outcome_stereotypeClose fun _ => ?_
  exact .pure fun named => by simpa using named

theorem builds_namesBehind (word : Keyword) : Builds missing (namesBehind word) fun names =>
    ∀ name ∈ names, IsIdentifier name := by
  -- Missing names are left out, so those that stay are identifiers.
  refine .after (fun _ => outcome_accept (by simp)) fun _ => .ite (fun _ => ?_)
    fun _ => .pure (by simp)
  refine .bind builds_expectIdentifier.separatedByCommas fun names => .pure fun named name member => ?_
  obtain ⟨inside, some_⟩ := List.mem_filter.1 member
  exact (named name inside).proper (by simpa using some_)

theorem builds_entity (budget : Nat) : Builds missing (entity budget) (EntityDecl.Shaped missing) := by
  refine .current_bind fun first => .after outcome_modifiers fun words => ?_
  refine .after outcome_entityKind fun kind => .bind builds_expectIdentifier fun name => ?_
  refine .bind builds_stereotype fun stereotype => ?_
  refine .bind (builds_namesBehind _) fun extendsNames => ?_
  refine .bind (builds_namesBehind _) fun implementsNames => ?_
  refine .bind (builds_members budget kind) fun members => .spanned fun span => ?_
  exact fun shaped implemented extended stereo named => ⟨named, stereo, extended, implemented, shaped⟩

theorem builds_setting {value : Reader String} {values separators : List TokenKind}
    (readsValue : ∀ c, Outcome value c (ReadsValue values c)) :
    Builds missing (setting value separators) fun found =>
      ∀ write ∈ found, NamedOr missing IsNameText write.1 := by
  refine .bind builds_expectName fun key => ?_
  refine .after (fun _ => .discard (outcome_expect (by simp))) fun _ => ?_
  refine .after readsValue fun text => .current_bind fun token => .ite (fun _ => ?_) fun _ => ?_
  · exact .after (fun _ => .discard outcome_advance) fun _ => .pure fun named => by simpa using named
  · exact .pure fun named => by simpa using named

theorem builds_attributes : Builds missing attributes fun writes =>
    ∀ write ∈ writes, NamedOr missing IsNameText write.1 := by
  refine .after (fun _ => outcome_accept (by simp)) fun _ => .ite (fun _ => ?_)
    fun _ => .pure (by simp)
  refine .bind (builds_setting outcome_attributeValue).many fun writes => ?_
  exact .after (fun _ => .discard (outcome_expect (by simp))) fun _ => .pure fun named => named

theorem builds_relation : Builds missing relation (RelationDecl.Shaped missing) := by
  refine .after (fun _ => outcome_expect (by simp)) fun first => ?_
  refine .after (fun _ => outcome_advance) fun symbol => .value_bind fun operator => ?_
  refine .bind builds_expectIdentifier fun target => .bind builds_attributes fun writes => ?_
  refine .spanned fun span named target => ⟨target, keyed_ofList fun write member => ?_, ?_⟩
  · obtain ⟨inside, kept⟩ := List.mem_filter.1 member
    have some_ : write.1 ≠ "" := by simp_all
    exact (named write inside).proper some_
  · intro key meaning member
    rw [OrderedMap.mem_keys_ofList] at member
    obtain ⟨write, inside, rfl⟩ := List.mem_map.1 member
    have kept := (List.mem_filter.1 inside).2
    simp_all

theorem builds_note : Builds missing note fun decl => ∀ name ∈ decl.target, IsIdentifier name := by
  have target : Builds missing noteTarget fun found => ∀ name ∈ found, IsIdentifier name := by
    refine .after (fun _ => outcome_accept (by simp)) fun _ => .ite (fun _ => ?_)
      fun _ => .pure (by simp)
    refine .bind builds_expectIdentifier fun name => .pure fun named => ?_
    by_cases empty : name = ""
    · simp [empty]
    · simpa [empty] using named.proper empty
  refine .after (fun _ => outcome_expect (by simp)) fun first => ?_
  refine .after (fun _ => outcome_expectText (by simp)) fun text => ?_
  exact .bind target fun on => .spanned fun span named => named

theorem builds_style : Builds missing style (StyleDecl.Shaped missing) := by
  refine .after (fun _ => outcome_expect (by simp)) fun first => ?_
  refine .bind builds_expectIdentifier fun target => ?_
  refine .after (fun _ => .discard (outcome_expect (by simp))) fun _ => ?_
  refine .bind (builds_setting outcome_styleValue).many fun writes => ?_
  refine .after (fun _ => .discard (outcome_expect (by simp))) fun _ => .spanned fun span => ?_
  refine fun named target => ⟨target, keyed_ofList fun write member => ?_⟩
  obtain ⟨inside, some_⟩ := List.mem_filter.1 member
  exact (named write inside).proper (by simpa using some_)

theorem builds_layout :
    Builds missing layout fun decl => NamedOr missing IsIdentifier decl.target := by
  refine .after (fun _ => outcome_expect (by simp)) fun first => ?_
  refine .bind builds_expectIdentifier fun target => ?_
  refine .after (fun _ => .discard (outcome_expect (by simp))) fun _ => ?_
  refine .after (fun _ => .discard (outcome_expect (by simp))) fun _ => ?_
  refine .after outcome_coordinate fun x => ?_
  refine .after (fun _ => .discard (outcome_expect (by simp))) fun _ => ?_
  refine .after outcome_coordinate fun y => ?_
  refine .after (fun _ => .discard (outcome_expect (by simp))) fun _ => .spanned fun span => ?_
  exact fun named => named

theorem builds_declaration (budget : Nat) (region : Region) :
    Builds missing (declaration budget region) fun found =>
      ∀ decl ∈ found, decl.Shaped missing := by
  have stray : Builds missing (skipUnexpected region >>= fun _ => pure none) fun found =>
      ∀ decl : Declaration, decl ∈ found → decl.Shaped missing :=
    .after (fun _ => outcome_skipUnexpected region) fun _ => .pure (by simp)
  refine .get_bind fun c => ?_
  split
  · exact .wrapped builds_layout fun _ named => named
  · exact .wrapped builds_note fun _ named => named
  · exact .wrapped builds_style fun _ shaped => shaped
  · exact .wrapped (builds_entity budget) fun _ shaped => shaped
  · exact .wrapped (builds_entity budget) fun _ shaped => shaped
  · exact .ite (fun _ => .wrapped builds_relation fun _ shaped => shaped) fun _ => stray
  · exact stray

theorem builds_packageWith {body? : Option (Reader (List Item))}
    (bodies : ∀ reader ∈ body?, Builds missing reader fun body => ∀ item ∈ body, item.Shaped missing) :
    Builds missing (packageWith body?) (Item.Shaped missing) := by
  refine .after (fun _ => outcome_expect (by simp)) fun first => ?_
  refine .bind builds_expectIdentifier fun name => ?_
  have close {body : List Item} (shaped : ∀ item ∈ body, item.Shaped missing) :
      Builds missing (do
        discard (expect (.mark .rightBrace))
        return Item.package name body (← spanFrom first)) fun item =>
          NamedOr missing IsIdentifier name → item.Shaped missing :=
    .after (fun _ => .discard (outcome_expect (by simp))) fun _ => .spanned fun _ named =>
      .package named shaped
  cases body? with
  | some body =>
    refine .after (fun _ => outcome_expect (by simp)) fun brace => ?_
    refine .bind (bodies body rfl) fun items => ?_
    refine .after (fun _ => .discard (outcome_expect (by simp))) fun _ => .spanned fun _ => ?_
    exact fun shaped named => .package named shaped
  | none =>
    -- What is reported is the token that was looked for, so both are one step.
    intro c tokens
    refine ensures_expect_report fun m reached => ?_
    have rest : Builds missing (do
        if c.current.kind = .mark .leftBrace then
          skipNested (.mark .leftBrace) (.mark .rightBrace)
        discard (expect (.mark .rightBrace))
        return Item.package name [] (← spanFrom first)) fun item =>
          NamedOr missing IsIdentifier name → item.Shaped missing :=
      .ite (fun _ => .after (fun _ => outcome_skipNested _ _) fun _ => close (by simp))
        fun _ => close (by simp)
    exact rest (worded_of_reaches tokens reached)

theorem builds_item {budget : Nat} {region : Region} {package : Reader Item}
    (packages : Builds missing package (Item.Shaped missing)) :
    Builds missing (item budget region package) fun found =>
      ∀ item ∈ found, item.Shaped missing := by
  refine .after (fun _ => outcome_isAt) fun _ => .ite (fun _ => ?_) fun _ => ?_
  · exact .wrapped packages fun _ shaped => shaped
  · refine .bind (builds_declaration budget region) fun found => .pure fun shaped item member => ?_
    obtain ⟨decl, inside, rfl⟩ := Option.map_eq_some_iff.1 member
    exact .declaration (shaped decl inside)

theorem builds_items (budget : Nat) (region : Region) :
    Builds missing (items budget region) fun body => ∀ item ∈ body, item.Shaped missing := by
  induction budget generalizing region with
  | zero => exact (builds_item (builds_packageWith (by simp))).many
  | succ budget ih =>
    refine (builds_item (builds_packageWith fun reader member => ?_)).many
    obtain rfl := Option.some.inj member
    exact ih .packageBody

theorem builds_diagramDecl : Builds missing diagramDecl (DiagramDecl.Shaped missing) := by
  refine .after (fun _ => outcome_expect (by simp)) fun first => ?_
  refine .bind builds_expectIdentifier fun name => ?_
  refine .after (fun _ => .discard (outcome_expect (by simp))) fun _ => ?_
  refine .after outcome_diagramKind fun kind => ?_
  refine .after (fun _ => .discard (outcome_expect (by simp))) fun _ => ?_
  refine .bind (builds_items nestingLimit _) fun body => ?_
  refine .after (fun _ => .discard (outcome_expect (by simp))) fun _ => .spanned fun span => ?_
  exact fun shaped named => ⟨named, shaped⟩

def TopLevel.Shaped (missing : Prop) : TopLevel → Prop
  | .diagram decl => decl.Shaped missing
  | .imported _ | .stray => True

theorem builds_topLevel : Builds missing topLevel fun found =>
    ∀ part ∈ found, part.Shaped missing := by
  intro c tokens
  refine .get_bind <| .ite (fun _ => .pure fun _ => by simp) fun _ => ?_
  split
  · exact Builds.wrapped (.of_outcome outcome_importDecl) (fun _ _ => trivial) tokens
  · have shape : ∀ decl, decl.Shaped missing → (TopLevel.diagram decl).Shaped missing :=
      fun _ shaped => shaped
    exact Builds.wrapped builds_diagramDecl shape tokens
  · refine .bind (ensures_report _) fun _ _ _ _ => ?_
    refine .bind (.of_outcome (.discard outcome_advance)) fun _ _ _ _ => .pure fun _ => ?_
    simp [TopLevel.Shaped]

end Readers

/-- Whatever the source is, a program that is parsed is shaped: types are made of type names, without
empty lists of arguments and without a question mark behind another; values stand in enumerations,
keys are distinct names, and a name is empty only where something was reported. -/
theorem shaped_of_parse {source : String} {parsed : Parsed} (ended : parse source = .ok parsed) :
    parsed.program.Shaped (parsed.errors ≠ []) where
  types _ := within_of_parse ended
  diagrams := by
    obtain ⟨last, run, errors, -⟩ := run_of_parse ended
    -- Lexical errors make a source faulty too, so what the parser reported is enough.
    have known : last.errors ≠ [] → parsed.errors ≠ [] := by
      intro loud quiet
      rw [errors] at quiet
      exact loud (List.reverse_eq_nil_iff.1 (List.append_eq_nil_iff.1 quiet).2)
    have tokens : ∀ token ∈ (Cursor.ofTokens (Lexer.lex source).tokens).rest, Worded token := by
      intro token member
      rw [Lexer.rest_ofTokens] at member
      exact worded_of_mem_tokens member
    rw [program, run_current_bind] at run
    obtain ⟨parts, d, loop, final⟩ := run_of_bind run
    obtain ⟨whole, rfl⟩ := Prod.mk.inj (Except.ok.inj final)
    obtain ⟨-, shaped⟩ := builds_topLevel.repeatWhile tokens loop
    intro diagram member
    rw [← whole] at member
    obtain ⟨part, inside, shown⟩ := List.mem_filterMap.1 member
    cases part with
    | diagram own =>
      obtain rfl := Option.some.inj shown
      exact shaped known _ inside
    | imported | stray => cases shown

/-- A diagram, a stereotype, a parameter and the end of a relation without their names, and a style
that is written twice. -/
theorem shaped_of_parse_nameless : ∃ parsed,
    parse "diagram : class \x7b enum E << >> \x7b V f(: List<, ?>) \x7d A --> [w=\"1\" w=\"2\"] \x7d" =
      .ok parsed ∧
    parsed.program.diagrams.map (·.name) = [""] ∧ parsed.errors.length = 8 ∧
    parsed.program.Shaped (parsed.errors ≠ []) := by
  have known : (parse
      "diagram : class \x7b enum E << >> \x7b V f(: List<, ?>) \x7d A --> [w=\"1\" w=\"2\"] \x7d").toOption.map
      (fun parsed => (parsed.program.diagrams.map (·.name), parsed.errors.length)) =
      some ([""], 8) := by decide +kernel
  obtain ⟨parsed, ended, shown⟩ := ok_of_toOption_map known
  obtain ⟨names, count⟩ := Prod.mk.inj shown
  exact ⟨parsed, ended, names, count, shaped_of_parse ended⟩

end Syntax

end ArchDiagram
