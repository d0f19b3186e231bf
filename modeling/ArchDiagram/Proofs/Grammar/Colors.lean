import ArchDiagram.Proofs.Grammar

/-!
Colors are values. Wherever the grammar derives tokens, a color stands directly behind an equals
sign; so no declaration, no member and no name begins with a color.
-/

namespace ArchDiagram.Syntax.Grammar

/-- Every color stands behind an equals sign. -/
def ColorsGiven (tokens : List Token) : Prop :=
  ∀ before token after, tokens = before ++ token :: after → token.kind = .color →
    ∃ sign, before.getLast? = some sign ∧ sign.kind = .mark .equals

namespace ColorsGiven

variable {xs ys : List Token} {token : Token}

theorem nil : ColorsGiven [] := by
  intro before token after split
  simp at split

theorem append (left : ColorsGiven xs) (right : ColorsGiven ys) : ColorsGiven (xs ++ ys) := by
  intro before token after split color
  -- The color is in the second list, or it is the first of it, or it is in the first list.
  rcases List.append_eq_append_iff.1 split with ⟨more, rfl, inside⟩ | ⟨more, whole, inside⟩
  · obtain ⟨sign, last, equals⟩ := right more token after inside color
    exact ⟨sign, by simp [List.getLast?_append, last], equals⟩
  · cases more with
    | nil =>
      obtain ⟨sign, last, -⟩ := right [] token after inside.symm color
      simp at last
    | cons first more =>
      obtain ⟨rfl, rfl⟩ := List.cons.inj inside
      exact left before token more whole color

theorem plain (other : ∀ token ∈ xs, token.kind ≠ .color) : ColorsGiven xs := by
  intro before token after split color
  have inside : token ∈ xs := by simp [split]
  exact absurd color (other token inside)

theorem cons (other : token.kind ≠ .color) (rest : ColorsGiven xs) : ColorsGiven (token :: xs) := by
  have first : ColorsGiven [token] := plain (by simpa using other)
  exact first.append rest

theorem value {sign : Token} (equals : sign.kind = .mark .equals) (rest : ColorsGiven xs) :
    ColorsGiven (sign :: token :: xs) := by
  have pair : ColorsGiven [sign, token] := by
    intro before other after split color
    cases before with
    | nil =>
      obtain ⟨rfl, -⟩ := List.cons.inj split
      rw [equals] at color
      cases color
    | cons first before =>
      cases before with
      | nil =>
        obtain ⟨rfl, -⟩ := List.cons.inj split
        exact ⟨sign, rfl, equals⟩
      | cons second before => simp at split
  exact pair.append rest

theorem separator {kinds : List TokenKind} (derived : Separator kinds xs)
    (other : .color ∉ kinds) : ColorsGiven xs := by
  cases derived with
  | absent => exact nil
  | present member =>
    apply plain
    intro token inside color
    rw [List.mem_singleton.1 inside] at color
    exact other (color ▸ member)

end ColorsGiven

def GivesColors {α : Type} (rule : Rule α) : Prop := ∀ ⦃xs a⦄, rule xs a → ColorsGiven xs

namespace GivesColors

variable {α : Type} {rule : Rule α}

theorem star (each : GivesColors rule) : GivesColors (Star rule) := by
  intro xs as derived
  induction derived with
  | nil => exact .nil
  | cons first _ ih => exact (each first).append ih

theorem maybe (each : GivesColors rule) : GivesColors (Maybe rule) := by
  intro xs a derived
  cases derived with
  | absent => exact .nil
  | present derived => exact each derived

theorem maybeSome {rule : Rule (List α)} (each : GivesColors rule) :
    GivesColors (MaybeSome rule) := by
  intro xs as derived
  cases derived with
  | absent => exact .nil
  | present derived => exact each derived

theorem behind {kind : TokenKind} (other : kind ≠ .color) (each : GivesColors rule) :
    GivesColors (Behind kind rule) := by
  intro xs a derived
  obtain ⟨isKind, derived⟩ := derived
  exact .cons (isKind ▸ other) (each derived)

theorem between {opening closing : TokenKind} (first : opening ≠ .color) (last : closing ≠ .color)
    (each : GivesColors rule) : GivesColors (Between opening closing rule) := by
  intro xs a derived
  obtain ⟨isOpening, derived, isClosing⟩ := derived
  exact .cons (isOpening ▸ first) ((each derived).append (.cons (isClosing ▸ last) .nil))

theorem commaList (each : GivesColors rule) : GivesColors (CommaList rule) := by
  intro xs as derived
  obtain ⟨first, more⟩ := derived
  exact (each first).append ((each.behind (by decide)).star more)

end GivesColors

theorem ne_color_of_isWord {kind : TokenKind} (named : IsWord kind) : kind ≠ .color := by
  rintro rfl
  cases named

theorem ne_color_of_isTypeWord {kind : TokenKind} (named : IsTypeWord kind) : kind ≠ .color := by
  rintro rfl
  cases named

theorem givesColors_identifier : GivesColors Identifier := by
  intro xs name derived
  obtain ⟨kind⟩ := derived
  exact .cons (by simp [kind]) .nil

theorem givesColors_modifier : GivesColors ModifierWord := by
  intro xs word derived
  obtain ⟨kind⟩ := derived
  exact .cons (by simp [kind]) .nil

theorem givesColors_visibility : GivesColors Visibility := by
  intro xs mark derived
  cases derived with
  | absent => exact .nil
  | @present token _ shown =>
    apply ColorsGiven.cons _ .nil
    intro color
    rw [color] at shown
    cases shown

theorem givesColors_typeBase {arguments : Rule (List TypeExpr)} (each : GivesColors arguments) :
    GivesColors (TypeBase arguments) := by
  intro xs type derived
  cases derived with
  | simple named => exact .cons (ne_color_of_isTypeWord named) .nil
  | generic named inside =>
    exact .cons (ne_color_of_isTypeWord named) (each.between (by decide) (by decide) inside)

theorem givesColors_typeWith {arguments : Rule (List TypeExpr)} (each : GivesColors arguments) :
    GivesColors (TypeWith arguments) := by
  intro xs type derived
  cases derived with
  | plain base => exact givesColors_typeBase each base
  | nullable base mark =>
    exact (givesColors_typeBase each base).append (.cons (by simp [mark]) .nil)

theorem givesColors_typeIn (levels : Nat) : GivesColors (TypeIn levels) := by
  induction levels with
  | zero => exact givesColors_typeWith fun _ _ => False.elim
  | succ levels ih => exact givesColors_typeWith ih.commaList

theorem givesColors_literal : GivesColors LiteralOf := by
  intro xs literal derived
  cases derived with
  | text kind => exact .cons (by simp [kind]) .nil
  | number kind => exact .cons (by simp [kind]) .nil
  | yes kind => exact .cons (by simp [kind]) .nil
  | no kind => exact .cons (by simp [kind]) .nil

theorem givesColors_param (levels : Nat) : GivesColors (Param levels) := by
  intro xs decl derived
  obtain ⟨named, colon, type, -⟩ := derived
  exact .cons (ne_color_of_isWord named) (.cons (by simp [colon]) (givesColors_typeIn levels type))

theorem givesColors_field (levels : Nat) : GivesColors (Field levels) := by
  intro xs decl derived
  obtain ⟨visibility, modifiers, named, colon, type, value, semicolon, rfl, -⟩ := derived
  have equals : TokenKind.mark .equals ≠ .color := by decide
  have behind := (givesColors_literal.behind equals).maybe value
  have rest := (givesColors_typeIn levels type).append
    (behind.append (.separator semicolon (by decide)))
  exact (givesColors_visibility visibility).append
    ((givesColors_modifier.star modifiers).append
      (.cons (ne_color_of_isWord named.1) (.cons (by simp [colon]) rest)))

theorem givesColors_method (levels : Nat) : GivesColors (Method levels) := by
  intro xs decl derived
  obtain ⟨visibility, modifiers, named, params, colon, type, semicolon, rfl, -⟩ := derived
  have list := (givesColors_param levels).commaList.maybeSome.between (by decide) (by decide) params
  have rest := (givesColors_typeIn levels type).append (.separator semicolon (by decide))
  exact (givesColors_visibility visibility).append
    ((givesColors_modifier.star modifiers).append
      (.cons (ne_color_of_isWord named.1) (list.append (.cons (by simp [colon]) rest))))

theorem givesColors_memberOf (levels : Nat) (kind : EntityKind) :
    GivesColors (MemberOf levels kind) := by
  intro xs member derived
  cases derived with
  | field derived => exact givesColors_field levels derived
  | method derived => exact givesColors_method levels derived
  | value _ named => exact .cons (ne_color_of_isWord named.1) .nil

theorem givesColors_members (greedy : Bool) (levels : Nat) (kind : EntityKind) :
    GivesColors (Members greedy levels kind) := by
  intro xs members derived
  induction derived with
  | nil => exact .nil
  | separator separates _ ih =>
    apply ColorsGiven.cons _ ih
    intro color
    rw [color] at separates
    revert separates
    cases kind <;> decide
  | member first _ _ ih => exact (givesColors_memberOf levels kind first).append ih

theorem givesColors_stereotype : GivesColors Stereotype := by
  intro xs name derived
  obtain ⟨opening, named, first, second, -⟩ := derived
  exact .plain (by simp [opening, named, first, second])

theorem givesColors_entity (greedy : Bool) (levels : Nat) :
    GivesColors (Entity greedy levels) := by
  intro xs decl derived
  obtain ⟨modifiers, word, named, stereotype, extended, implemented, body, rfl, -⟩ := derived
  have names := givesColors_identifier.commaList
  have members := givesColors_members greedy levels
  have block := ((members _).between (by decide) (by decide)).maybeSome body
  have rest := (givesColors_stereotype.maybe stereotype).append
    (((names.behind (by decide)).maybeSome extended).append
      (((names.behind (by decide)).maybeSome implemented).append block))
  exact (givesColors_modifier.star modifiers).append
    (.cons (by simp [word]) (.cons (by simp [named]) rest))

theorem givesColors_setting {values separators : List TokenKind} (other : .color ∉ separators) :
    GivesColors (Setting values separators) := by
  intro xs write derived
  obtain ⟨key, equals, -, separator⟩ := derived
  exact .cons (ne_color_of_isWord key) (.value equals (.separator separator other))

theorem givesColors_relation : GivesColors Relation := by
  intro xs decl derived
  obtain ⟨source, symbol, target, attributes, -⟩ := derived
  have settings : GivesColors (Setting [.color, .string] [.mark .comma]) :=
    givesColors_setting (by decide)
  exact .cons (by simp [source]) (.cons (by simp [symbol]) (.cons (by simp [target])
    ((settings.star.between (by decide) (by decide)).maybeSome attributes)))

theorem givesColors_note : GivesColors Note := by
  intro xs decl derived
  obtain ⟨word, text, target, -⟩ := derived
  exact .cons (by simp [word]) (.cons (by simp [text])
    ((givesColors_identifier.behind (by decide)).maybe target))

theorem givesColors_style : GivesColors Style := by
  intro xs decl derived
  obtain ⟨word, target, block, -⟩ := derived
  have settings :
      GivesColors (Setting [.number, .color, .string] [.mark .semicolon, .mark .comma]) :=
    givesColors_setting (by decide)
  exact .cons (by simp [word]) (.cons (by simp [target])
    (settings.star.between (by decide) (by decide) block))

theorem givesColors_layout : GivesColors Layout := by
  intro xs decl derived
  obtain ⟨sign, target, word, opening, x, -, comma, y, -, closing, -⟩ := derived
  exact .plain (by simp [sign, target, word, opening, x, comma, y, closing])

theorem givesColors_declaration (greedy : Bool) (levels : Nat) :
    GivesColors (DeclarationOf greedy levels) := by
  intro xs decl derived
  cases derived with
  | entity derived => exact givesColors_entity greedy levels derived
  | relation derived => exact givesColors_relation derived
  | note derived => exact givesColors_note derived
  | style derived => exact givesColors_style derived
  | layout derived => exact givesColors_layout derived

theorem givesColors_itemWith {greedy : Bool} {levels : Nat} {body : Rule (List Item)}
    (each : GivesColors body) : GivesColors (ItemWith greedy levels body) := by
  intro xs item derived
  cases derived with
  | package word named block =>
    exact .cons (by simp [word]) (.cons (by simp [named])
      (each.between (by decide) (by decide) block))
  | declaration derived => exact givesColors_declaration greedy levels derived

theorem givesColors_itemsIn (greedy : Bool) (levels : Nat) :
    GivesColors (ItemsIn greedy levels) := by
  induction levels with
  | zero => exact (givesColors_itemWith fun _ _ => False.elim).star
  | succ levels ih => exact (givesColors_itemWith ih).star

/-- Colors are not spelled as the kinds of diagrams are. -/
def ColorsSpelled (tokens : List Token) : Prop :=
  ∀ token ∈ tokens, token.kind = .color → ∀ kind : DiagramKind, token.text ≠ kind.word

theorem colorsGiven_part {greedy : Bool} {levels : Nat} {xs : List Token} {part : TopLevel}
    (derived : Part greedy levels xs part) (spelled : ColorsSpelled xs) : ColorsGiven xs := by
  cases derived with
  | imported derived =>
    obtain ⟨word, path, semicolon, -⟩ := derived
    exact .cons (by simp [word]) (.cons (by simp [path]) (.separator semicolon (by decide)))
  | diagram derived =>
    obtain @⟨_, _, _, shown, _, kind, _, _, word, named, colon, -, text, block, -⟩ := derived
    -- The word for the kind may be a token of nearly any kind, but a color is spelled otherwise.
    have other : shown.kind ≠ .color := fun color => 
      spelled shown (by simp) color kind (isDiagramWord_iff.1 text)
    exact .cons (by simp [word]) (.cons (by simp [named]) (.cons (by simp [colon]) (.cons other
      ((givesColors_itemsIn greedy levels).between (by decide) (by decide) block))))

theorem colorsGiven_parts {greedy : Bool} {levels : Nat} {xs : List Token} {parts : List TopLevel}
    (derived : Parts greedy levels xs parts) (spelled : ColorsSpelled xs) : ColorsGiven xs := by
  induction derived with
  | nil => exact .nil
  | cons first _ ih =>
    have left := colorsGiven_part first fun token inside => spelled token (by simp [inside])
    exact left.append (ih fun token inside => spelled token (by simp [inside]))

end ArchDiagram.Syntax.Grammar
