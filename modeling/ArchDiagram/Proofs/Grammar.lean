import ArchDiagram.Proofs.Numbers
import ArchDiagram.Proofs.Writes

/-!
The grammar of the diagram language, apart from any way of reading it. A rule relates tokens to the
tree that they stand for, in which every node has the span of its own tokens. No rule looks at what
stands behind its tokens, and none says what becomes of tokens that do not fit. The rules do not ask
what a reader would make of a token: kinds, marks and numbers are told here once more.

Packages and type arguments may be nested `levels` deep in all.
-/

namespace ArchDiagram.Syntax

open Analysis (Enumerates Latest Written enumerates_list)

/-- What a relation says if these writes stand between its brackets. An empty name, which no token of
a source has, is no key. -/
structure Says (writes : List (String × String)) (decl : RelationDecl) : Prop where
  label : Latest (fun (i : Nat) value => writes[i]? = some ("label", value)) decl.label
  sourceMultiplicity :
    Latest (fun (i : Nat) value => writes[i]? = some ("fromMult", value)) decl.sourceMultiplicity
  targetMultiplicity :
    Latest (fun (i : Nat) value => writes[i]? = some ("toMult", value)) decl.targetMultiplicity
  style : Written (fun (i : Nat) write => writes[i]? = some write ∧ write.1 ≠ "" ∧
    write.1 ∉ ["label", "fromMult", "toMult"]) decl.style

theorem latest_lastValue? (key : String) (writes : List (String × String)) :
    Latest (fun (i : Nat) value => writes[i]? = some (key, value)) (lastValue? key writes) :=
  (enumerates_list writes).written.values key

theorem written_styleWrites (writes : List (String × String)) :
    Written (fun (i : Nat) write => writes[i]? = some write ∧ write.1 ≠ "" ∧ write.1 ∉ relationKeys)
      (.ofList (styleWrites writes)) := by
  have kept := (enumerates_list writes).filter fun write =>
    write.1 ≠ "" ∧ write.1 ∉ relationKeys
  exact (kept.congr fun i write => and_congr_right fun _ => decide_eq_true_iff).written

theorem says_writes (source target : String) (operator : RelationOperator)
    (writes : List (String × String)) (span : Span) : Says writes {
      source := source
      target := target
      operator := operator
      label := lastValue? "label" writes
      sourceMultiplicity := lastValue? "fromMult" writes
      targetMultiplicity := lastValue? "toMult" writes
      style := .ofList (styleWrites writes)
      span := span } where
  label := latest_lastValue? "label" writes
  sourceMultiplicity := latest_lastValue? "fromMult" writes
  targetMultiplicity := latest_lastValue? "toMult" writes
  style := written_styleWrites writes

theorem Says.unique {writes : List (String × String)} {decl other : RelationDecl}
    (told : Says writes decl) (again : Says writes other) (source : decl.source = other.source)
    (target : decl.target = other.target) (operator : decl.operator = other.operator)
    (span : decl.span = other.span) : decl = other := by
  have single {key : String} (i : Nat) (x y : String) (here : writes[i]? = some (key, x))
      (there : writes[i]? = some (key, y)) : x = y :=
    congrArg Prod.snd (Option.some.inj (here.symm.trans there))
  have label := Latest.unique single told.label again.label
  have from_ := Latest.unique single told.sourceMultiplicity again.sourceMultiplicity
  have to_ := Latest.unique single told.targetMultiplicity again.targetMultiplicity
  have style := told.style.unique
    (fun i x y here there => Option.some.inj (here.1.symm.trans there.1)) again.style
  cases decl
  cases other
  simp_all

namespace Grammar

abbrev Rule (α : Type) := List Token → α → Prop

section Shapes

variable {α : Type}

/-- From the start of the first token to the end of the last one. -/
inductive Spans : Rule Span
  | mk {tokens : List Token} {first last : Token} : tokens.head? = some first →
      tokens.getLast? = some last → Spans tokens ⟨first.position, last.stop⟩

inductive Star (rule : Rule α) : Rule (List α)
  | nil : Star rule [] []
  | cons {xs ys : List Token} {a : α} {as : List α} :
      rule xs a → Star rule ys as → Star rule (xs ++ ys) (a :: as)

inductive Maybe (rule : Rule α) : Rule (Option α)
  | absent : Maybe rule [] none
  | present {xs : List Token} {a : α} : rule xs a → Maybe rule xs (some a)

inductive MaybeSome (rule : Rule (List α)) : Rule (List α)
  | absent : MaybeSome rule [] []
  | present {xs : List Token} {as : List α} : rule xs as → MaybeSome rule xs as

inductive Behind (kind : TokenKind) (rule : Rule α) : Rule α
  | mk {token : Token} {xs : List Token} {a : α} :
      token.kind = kind → rule xs a → Behind kind rule (token :: xs) a

inductive Between (opening closing : TokenKind) (rule : Rule α) : Rule α
  | mk {first last : Token} {xs : List Token} {a : α} : first.kind = opening → rule xs a →
      last.kind = closing → Between opening closing rule (first :: (xs ++ [last])) a

inductive CommaList (rule : Rule α) : Rule (List α)
  | mk {xs ys : List Token} {a : α} {as : List α} : rule xs a →
      Star (Behind (.mark .comma) rule) ys as → CommaList rule (xs ++ ys) (a :: as)

/-- A token of one of the given kinds, which may be missing. -/
inductive Separator (kinds : List TokenKind) : List Token → Prop
  | absent : Separator kinds []
  | present {token : Token} : token.kind ∈ kinds → Separator kinds [token]

inductive Identifier : Rule String
  | mk {token : Token} : token.kind = .identifier → Identifier [token] token.text

end Shapes

/-- Identifiers and keywords name members, parameters and attributes. -/
inductive IsWord : TokenKind → Prop
  | identifier : IsWord .identifier
  | keyword (word : Keyword) : IsWord (.keyword word)

inductive IsTypeWord : TokenKind → Prop
  | identifier : IsTypeWord .identifier
  | builtin (type : BuiltinType) : IsTypeWord (.keyword (.builtin type))

/-- The mark of a member and whom it lets in. -/
inductive IsVisibility : TokenKind → VisibilityMark → Prop
  | plus : IsVisibility (.mark .plus) .plus
  | minus : IsVisibility (.mark .minus) .minus
  | hash : IsVisibility (.mark .hash) .hash
  | tilde : IsVisibility (.mark .tilde) .tilde

/-- A number with a point is the nearest binary one, and one without a point the integer that its
digits spell, of which there are not too many. -/
inductive IsNumber (text : String) : Constant → Prop
  | natural {digits : List Char} : IsDigits digits → digits.length ≤ 4300 → text.toList = digits →
      IsNumber text (.integer (naturalOf digits))
  | negative {digits : List Char} : IsDigits digits → digits.length ≤ 4300 →
      text.toList = '-' :: digits → IsNumber text (.integer (-naturalOf digits))
  | decimal {numeral : Decimal.Numeral} : '.' ∈ text.toList → Spells text.toList numeral →
      IsNumber text (.decimal (.ofNumeral numeral))

inductive IsDiagramWord : String → DiagramKind → Prop
  | classes : IsDiagramWord "class" .classes
  | usecase : IsDiagramWord "usecase" .usecase
  | sequence : IsDiagramWord "sequence" .sequence
  | component : IsDiagramWord "component" .component
  | flow : IsDiagramWord "flow" .flow
  | deployment : IsDiagramWord "deployment" .deployment

section Kinds

variable {kind : TokenKind}

theorem isWord_iff : IsWord kind ↔ kind.isName = true := by
  constructor
  · rintro (_ | _) <;> rfl
  · intro named
    cases kind with
    | identifier => exact .identifier
    | keyword word => exact .keyword word
    | _ => cases named

theorem isTypeWord_iff : IsTypeWord kind ↔ isTypeName kind = true := by
  constructor
  · rintro (_ | _) <;> rfl
  · intro named
    unfold isTypeName at named
    split at named
    · exact .identifier
    · exact .builtin _
    · cases named

theorem isVisibility_iff {mark : VisibilityMark} :
    IsVisibility kind mark ↔ visibility? kind = some mark := by
  constructor
  · rintro (_ | _ | _ | _) <;> rfl
  · intro shown
    unfold visibility? at shown
    split at shown <;> cases shown
    · exact .plus
    · exact .minus
    · exact .hash
    · exact .tilde

theorem isModifier_eq_false_iff :
    isModifier kind = false ↔ ∀ word : Modifier, kind ≠ .keyword (.modifier word) := by
  constructor
  · rintro plain word rfl
    cases plain
  · intro other
    unfold isModifier
    split
    · next word => exact absurd rfl (other word)
    · rfl

theorem isRelation_iff :
    kind.isRelation = true ↔ ∃ operator : RelationOperator, kind = .relation operator := by
  constructor
  · intro relates
    cases kind with
    | relation operator => exact ⟨operator, rfl⟩
    | _ => cases relates
  · rintro ⟨operator, rfl⟩
    rfl

theorem IsNumber.numberValue_eq {text : String} {value : Constant} (number : IsNumber text value) :
    numberValue text = .ok value := by
  have plain {digits : List Char} (isDigits : IsDigits digits) : '.' ∉ digits := fun point =>
    absurd (isDigits.2 '.' point) (by decide)
  unfold numberValue
  cases number with
  | @natural digits isDigits few spelled =>
    have read := readInteger_digits (.inl rfl) isDigits
    rw [List.nil_append, if_neg (Nat.not_lt.2 few)] at read
    rw [spelled, if_neg (plain isDigits), integerValue, spelled, read]
    rfl
  | @negative digits isDigits few spelled =>
    have read := readInteger_digits (.inr rfl) isDigits
    rw [List.singleton_append, if_neg (Nat.not_lt.2 few)] at read
    rw [spelled, if_neg (by simp [plain isDigits]), integerValue, spelled, read]
    rfl
  | decimal point spells =>
    rw [if_pos point, spells.decimalValue_eq]
    rfl

theorem isNumber_of_numberValue {text : String} {value : Constant} (numeric : Numeric text.toList)
    (read : numberValue text = .ok value) : IsNumber text value := by
  unfold numberValue at read
  split_ifs at read with point
  · obtain ⟨numeral, spells⟩ := numeric.spells
    rw [spells.decimalValue_eq] at read
    obtain rfl := Except.ok.inj read
    exact .decimal point spells
  · rw [integerValue] at read
    generalize same : text.toList = cs at numeric read point
    obtain @⟨sign, whole, fraction, signed, digits, rfl | ⟨places, -, rfl⟩⟩ := numeric
    · rw [List.append_nil] at same read
      rw [readInteger_digits signed digits] at read
      split_ifs at read with long
      · cases read
      · obtain rfl := Except.ok.inj read
        rcases signed with rfl | rfl
        · exact .natural digits (Nat.not_lt.1 long) same
        · exact .negative digits (Nat.not_lt.1 long) same
    · simp at point

theorem relationOperator_symbol (operator : RelationOperator) :
    relationOperator operator.symbol = .ok operator := by
  cases operator <;> rfl

theorem isDiagramWord_iff {text : String} {kind : DiagramKind} :
    IsDiagramWord text kind ↔ text = kind.word := by
  constructor
  · rintro (_ | _) <;> rfl
  · rintro rfl
    cases kind <;> constructor

end Kinds

inductive Import : Rule ImportDecl
  | mk {word path : Token} {semicolon : List Token} {span : Span} :
      word.kind = .keyword .importWord → path.kind = .string →
      Separator [.mark .semicolon] semicolon → Spans (word :: path :: semicolon) span →
      Import (word :: path :: semicolon) ⟨path.text, span⟩

inductive TypeBase (arguments : Rule (List TypeExpr)) : Rule TypeExpr
  | simple {name : Token} {span : Span} : IsTypeWord name.kind → Spans [name] span →
      TypeBase arguments [name] (.simple name.text span)
  | generic {name : Token} {xs : List Token} {args : List TypeExpr} {span : Span} :
      IsTypeWord name.kind → Between (.mark .less) (.mark .greater) arguments xs args →
      Spans (name :: xs) span → TypeBase arguments (name :: xs) (.generic name.text args span)

/-- The question mark stands for the whole type before it. -/
inductive TypeWith (arguments : Rule (List TypeExpr)) : Rule TypeExpr
  | plain {xs : List Token} {type : TypeExpr} :
      TypeBase arguments xs type → TypeWith arguments xs type
  | nullable {xs : List Token} {mark : Token} {type : TypeExpr} {span : Span} :
      TypeBase arguments xs type → mark.kind = .mark .question → Spans (xs ++ [mark]) span →
      TypeWith arguments (xs ++ [mark]) (.nullable type span)

def TypeIn : (levels : Nat) → Rule TypeExpr
  | 0 => TypeWith fun _ _ => False
  | levels + 1 => TypeWith (CommaList (TypeIn levels))

inductive LiteralOf : Rule Literal
  | text {token : Token} {span : Span} : token.kind = .string → Spans [token] span →
      LiteralOf [token] ⟨.text token.text, span⟩
  | number {token : Token} {value : Constant} {span : Span} : token.kind = .number →
      IsNumber token.text value → Spans [token] span → LiteralOf [token] ⟨value, span⟩
  | yes {token : Token} {span : Span} : token.kind = .identifier → token.text = "true" →
      Spans [token] span → LiteralOf [token] ⟨.boolean true, span⟩
  | no {token : Token} {span : Span} : token.kind = .identifier → token.text = "false" →
      Spans [token] span → LiteralOf [token] ⟨.boolean false, span⟩

inductive Visibility : Rule VisibilityMark
  | absent : Visibility [] .absent
  | present {token : Token} {mark : VisibilityMark} :
      IsVisibility token.kind mark → Visibility [token] mark

inductive ModifierWord : Rule Modifier
  | mk {token : Token} {word : Modifier} :
      token.kind = .keyword (.modifier word) → ModifierWord [token] word

/-- Keywords name members too, apart from the modifiers. -/
def IsMemberName (token : Token) : Prop :=
  IsWord token.kind ∧ ∀ word : Modifier, token.kind ≠ .keyword (.modifier word)

inductive Param (levels : Nat) : Rule ParamDecl
  | mk {name colon : Token} {xs : List Token} {type : TypeExpr} {span : Span} :
      IsWord name.kind → colon.kind = .mark .colon → TypeIn levels xs type →
      Spans (name :: colon :: xs) span → Param levels (name :: colon :: xs) ⟨name.text, type, span⟩

inductive Field (levels : Nat) : Rule FieldDecl
  | mk {vis mods : List Token} {name colon : Token} {xs assigned semicolon tokens : List Token}
      {visibility : VisibilityMark} {modifiers : List Modifier} {type : TypeExpr}
      {value : Option Literal} {span : Span} :
      Visibility vis visibility → Star ModifierWord mods modifiers → IsMemberName name →
      colon.kind = .mark .colon → TypeIn levels xs type →
      Maybe (Behind (.mark .equals) LiteralOf) assigned value →
      Separator [.mark .semicolon] semicolon →
      tokens = vis ++ (mods ++ name :: colon :: (xs ++ (assigned ++ semicolon))) →
      Spans tokens span → Field levels tokens ⟨visibility, modifiers, name.text, type, value, span⟩

inductive Method (levels : Nat) : Rule MethodDecl
  | mk {vis mods : List Token} {name : Token} {list : List Token} {colon : Token}
      {xs semicolon tokens : List Token} {visibility : VisibilityMark} {modifiers : List Modifier}
      {params : List ParamDecl} {type : TypeExpr} {span : Span} :
      Visibility vis visibility → Star ModifierWord mods modifiers → IsMemberName name →
      Between (.mark .leftParen) (.mark .rightParen) (MaybeSome (CommaList (Param levels)))
        list params →
      colon.kind = .mark .colon → TypeIn levels xs type →
      Separator [.mark .semicolon] semicolon →
      tokens = vis ++ (mods ++ name :: (list ++ colon :: (xs ++ semicolon))) →
      Spans tokens span → Method levels tokens ⟨visibility, modifiers, name.text, params, type, span⟩

inductive MemberOf (levels : Nat) (kind : EntityKind) : Rule Member
  | field {xs : List Token} {decl : FieldDecl} :
      Field levels xs decl → MemberOf levels kind xs (.field decl)
  | method {xs : List Token} {decl : MethodDecl} :
      Method levels xs decl → MemberOf levels kind xs (.method decl)
  | value {token : Token} {span : Span} : kind = .enumeration → IsMemberName token →
      Spans [token] span → MemberOf levels kind [token] (.value ⟨token.text, span⟩)

def memberSeparators (kind : EntityKind) : List TokenKind :=
  if kind = .enumeration then [.mark .semicolon, .mark .comma] else [.mark .semicolon]

/-- A field or method leaves no semicolon behind that it could have at its end. -/
def Settled (member : Member) (tokens next : List Token) : Prop :=
  match member with
  | .value _ => True
  | .field _ | .method _ =>
    (∃ last, tokens.getLast? = some last ∧ last.kind = .mark .semicolon) ∨
    ∀ token, next.head? = some token → token.kind ≠ .mark .semicolon

/-- The members of an entity. A semicolon behind a field or method is part of it or stands for
itself; where the grammar is `greedy` it is always part of it. -/
inductive Members (greedy : Bool) (levels : Nat) (kind : EntityKind) : Rule (List Member)
  | nil : Members greedy levels kind [] []
  | separator {token : Token} {ys : List Token} {members : List Member} :
      token.kind ∈ memberSeparators kind → Members greedy levels kind ys members →
      Members greedy levels kind (token :: ys) members
  | member {xs ys : List Token} {first : Member} {members : List Member} :
      MemberOf levels kind xs first → Members greedy levels kind ys members →
      (greedy = true → Settled first xs ys) →
      Members greedy levels kind (xs ++ ys) (first :: members)

/-- The two closing marks touch each other. -/
inductive Stereotype : Rule String
  | mk {opening name first second : Token} : opening.kind = .stereotypeOpen →
      name.kind = .identifier → first.kind = .mark .greater → second.kind = .mark .greater →
      second.position.offset = first.stop → Stereotype [opening, name, first, second] name.text

inductive Entity (greedy : Bool) (levels : Nat) : Rule EntityDecl
  | mk {mods : List Token} {word name : Token} {stereo extended implemented body tokens : List Token}
      {modifiers : List Modifier} {kind : EntityKind} {stereotype : Option String}
      {extendsNames implementsNames : List String} {members : List Member} {span : Span} :
      Star ModifierWord mods modifiers → word.kind = .keyword (.entity kind) →
      name.kind = .identifier → Maybe Stereotype stereo stereotype →
      MaybeSome (Behind (.keyword .extendsWord) (CommaList Identifier)) extended extendsNames →
      MaybeSome (Behind (.keyword .implementsWord) (CommaList Identifier))
        implemented implementsNames →
      MaybeSome (Between (.mark .leftBrace) (.mark .rightBrace) (Members greedy levels kind))
        body members →
      tokens = mods ++ word :: name :: (stereo ++ (extended ++ (implemented ++ body))) →
      Spans tokens span →
      Entity greedy levels tokens ⟨modifiers, kind, name.text, stereotype, extendsNames,
        implementsNames, members, span⟩

inductive Setting (values separators : List TokenKind) : Rule (String × String)
  | mk {key equals value : Token} {separator : List Token} : IsWord key.kind →
      equals.kind = .mark .equals → value.kind ∈ values → Separator separators separator →
      Setting values separators (key :: equals :: value :: separator) (key.text, value.text)

inductive Relation : Rule RelationDecl
  | mk {source symbol target : Token} {attributes : List Token} {writes : List (String × String)}
      {decl : RelationDecl} :
      source.kind = .identifier → symbol.kind = .relation decl.operator →
      target.kind = .identifier →
      MaybeSome (Between (.mark .leftBracket) (.mark .rightBracket)
        (Star (Setting [.color, .string] [.mark .comma]))) attributes writes →
      decl.source = source.text → decl.target = target.text → Says writes decl →
      Spans (source :: symbol :: target :: attributes) decl.span →
      Relation (source :: symbol :: target :: attributes) decl

inductive Note : Rule NoteDecl
  | mk {word text : Token} {on : List Token} {target : Option String} {span : Span} :
      word.kind = .keyword .note → text.kind = .string →
      Maybe (Behind (.keyword .onWord) Identifier) on target →
      Spans (word :: text :: on) span → Note (word :: text :: on) ⟨text.text, target, span⟩

inductive Style : Rule StyleDecl
  | mk {word target : Token} {block : List Token} {writes : List (String × String)}
      {styles : OrderedMap String} {span : Span} :
      word.kind = .keyword .style → target.kind = .identifier →
      Between (.mark .leftBrace) (.mark .rightBrace)
        (Star (Setting [.number, .color, .string] [.mark .semicolon, .mark .comma])) block writes →
      Written (fun (i : Nat) write => writes[i]? = some write) styles →
      Spans (word :: target :: block) span →
      Style (word :: target :: block) ⟨target.text, styles, span⟩

inductive Layout : Rule LayoutDecl
  | mk {sign target word opening x comma y closing : Token} {left top : Decimal.Numeral}
      {span : Span} :
      sign.kind = .mark .atSign → target.kind = .identifier → word.kind = .keyword .atWord →
      opening.kind = .mark .leftParen → x.kind = .number →
      Spells x.text.toList left →
      comma.kind = .mark .comma → y.kind = .number →
      Spells y.text.toList top →
      closing.kind = .mark .rightParen →
      Spans [sign, target, word, opening, x, comma, y, closing] span →
      Layout [sign, target, word, opening, x, comma, y, closing]
        ⟨target.text, .ofNumeral left, .ofNumeral top, span⟩

inductive DeclarationOf (greedy : Bool) (levels : Nat) : Rule Declaration
  | entity {xs : List Token} {decl : EntityDecl} :
      Entity greedy levels xs decl → DeclarationOf greedy levels xs (.entity decl)
  | relation {xs : List Token} {decl : RelationDecl} :
      Relation xs decl → DeclarationOf greedy levels xs (.relation decl)
  | note {xs : List Token} {decl : NoteDecl} :
      Note xs decl → DeclarationOf greedy levels xs (.note decl)
  | style {xs : List Token} {decl : StyleDecl} :
      Style xs decl → DeclarationOf greedy levels xs (.style decl)
  | layout {xs : List Token} {decl : LayoutDecl} :
      Layout xs decl → DeclarationOf greedy levels xs (.layout decl)

inductive ItemWith (greedy : Bool) (levels : Nat) (body : Rule (List Item)) : Rule Item
  | package {word name : Token} {block : List Token} {items : List Item} {span : Span} :
      word.kind = .keyword .package → name.kind = .identifier →
      Between (.mark .leftBrace) (.mark .rightBrace) body block items →
      Spans (word :: name :: block) span →
      ItemWith greedy levels body (word :: name :: block) (.package name.text items span)
  | declaration {xs : List Token} {decl : Declaration} :
      DeclarationOf greedy levels xs decl → ItemWith greedy levels body xs (.declaration decl)

def ItemsIn (greedy : Bool) : (levels : Nat) → Rule (List Item)
  | 0 => Star (ItemWith greedy 0 fun _ _ => False)
  | levels + 1 => Star (ItemWith greedy (levels + 1) (ItemsIn greedy levels))

/-- The word for the kind of a diagram may be a token of any kind but a string. -/
inductive Diagram (greedy : Bool) (levels : Nat) : Rule DiagramDecl
  | mk {word name colon shown : Token} {block : List Token} {kind : DiagramKind}
      {items : List Item} {span : Span} :
      word.kind = .keyword .diagram → name.kind = .identifier → colon.kind = .mark .colon →
      shown.kind ≠ .string → IsDiagramWord shown.text kind →
      Between (.mark .leftBrace) (.mark .rightBrace) (ItemsIn greedy levels) block items →
      Spans (word :: name :: colon :: shown :: block) span →
      Diagram greedy levels (word :: name :: colon :: shown :: block)
        ⟨name.text, kind, items, span⟩

inductive Part (greedy : Bool) (levels : Nat) : Rule TopLevel
  | imported {xs : List Token} {decl : ImportDecl} :
      Import xs decl → Part greedy levels xs (.imported decl)
  | diagram {xs : List Token} {decl : DiagramDecl} :
      Diagram greedy levels xs decl → Part greedy levels xs (.diagram decl)

def Parts (greedy : Bool) (levels : Nat) : Rule (List TopLevel) := Star (Part greedy levels)

inductive Sorted : List TopLevel → List ImportDecl → List DiagramDecl → Prop
  | nil : Sorted [] [] []
  | imported {decl : ImportDecl} {parts : List TopLevel} {imports : List ImportDecl}
      {diagrams : List DiagramDecl} : Sorted parts imports diagrams →
      Sorted (.imported decl :: parts) (decl :: imports) diagrams
  | diagram {decl : DiagramDecl} {parts : List TopLevel} {imports : List ImportDecl}
      {diagrams : List DiagramDecl} : Sorted parts imports diagrams →
      Sorted (.diagram decl :: parts) imports (decl :: diagrams)

theorem sorted_of_parts {greedy : Bool} {levels : Nat} {xs : List Token} {parts : List TopLevel}
    (derived : Parts greedy levels xs parts) :
    Sorted parts (importsOf parts) (diagramsOf parts) := by
  induction derived with
  | nil => exact .nil
  | cons part _ ih =>
    cases part with
    | imported _ => exact .imported ih
    | diagram _ => exact .diagram ih

/-- Tokens take up text and stand one behind the other, no name is empty, and numbers and operators
are spelled as such. -/
structure Orderly (tokens : List Token) : Prop where
  forward : ∀ token ∈ tokens, token.position.offset < token.stop
  apart : tokens.Pairwise fun token next => token.stop ≤ next.position.offset
  named : ∀ token ∈ tokens, token.kind.isName = true → token.text ≠ ""
  numeric : ∀ token ∈ tokens, token.kind = .number → Numeric token.text.toList
  operator : ∀ token ∈ tokens, ∀ operator : RelationOperator, token.kind = .relation operator →
    token.text = operator.symbol

theorem Orderly.sublist {xs ys : List Token} (orderly : Orderly ys) (part : xs.Sublist ys) :
    Orderly xs where
  forward token member := orderly.forward token (part.subset member)
  apart := orderly.apart.sublist part
  named token member := orderly.named token (part.subset member)
  numeric token member := orderly.numeric token (part.subset member)
  operator token member := orderly.operator token (part.subset member)

theorem Orderly.start_lt_stop {tokens : List Token} {first last : Token}
    (orderly : Orderly tokens) (front : tokens.head? = some first)
    (final : tokens.getLast? = some last) : first.position.offset < last.stop := by
  cases tokens with
  | nil => simp at front
  | cons token rest =>
    obtain rfl : token = first := by simpa using front
    have here := orderly.forward token List.mem_cons_self
    have member := List.mem_of_getLast? final
    rcases List.mem_cons.mp member with rfl | later
    · exact here
    · have behind := (List.pairwise_cons.mp orderly.apart).1 last later
      have forward := orderly.forward last member
      omega

theorem ne_empty_of_identifiers {xs : List Token} {names : List String}
    (derived : CommaList Identifier xs names) (orderly : Orderly xs) :
    ∀ name ∈ names, name ≠ "" := by
  have single {ys : List Token} {name : String} (one : Identifier ys name) (orderly : Orderly ys) :
      name ≠ "" := by
    obtain ⟨kind⟩ := one
    exact orderly.named _ List.mem_cons_self (by simp [kind, TokenKind.isName])
  have all {ys : List Token} {rest : List String}
      (star : Star (Behind (.mark .comma) Identifier) ys rest) (orderly : Orderly ys) :
      ∀ name ∈ rest, name ≠ "" := by
    induction star with
    | nil => simp
    | cons first _ ih =>
      obtain ⟨-, one⟩ := first
      have here := single one
        (orderly.sublist ((List.sublist_cons_self _ _).trans (List.sublist_append_left _ _)))
      have there := ih (orderly.sublist (List.sublist_append_right _ _))
      simpa using ⟨here, there⟩
  obtain ⟨first, more⟩ := derived
  have here := single first (orderly.sublist (List.sublist_append_left _ _))
  have there := all more (orderly.sublist (List.sublist_append_right _ _))
  simpa using ⟨here, there⟩

theorem ne_empty_of_settings {values separators : List TokenKind} {xs : List Token}
    {writes : List (String × String)} (derived : Star (Setting values separators) xs writes)
    (orderly : Orderly xs) : ∀ write ∈ writes, write.1 ≠ "" := by
  induction derived with
  | nil => simp
  | cons first _ ih =>
    obtain ⟨nameKind⟩ := first
    have here := orderly.named _ (by simp) (isWord_iff.1 nameKind)
    have there := ih (orderly.sublist (List.sublist_append_right _ _))
    simpa [here] using there

end Grammar

end ArchDiagram.Syntax
