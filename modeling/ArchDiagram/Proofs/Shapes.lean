import ArchDiagram.Proofs.Reports
import ArchDiagram.Proofs.Ensures
import ArchDiagram.Proofs.TypeText.Names
import ArchDiagram.Proofs.Writes

/-!
The shape of a program, whatever was reported about its source. A name is what its place asks for, or
it is empty since it was missing, and then something was reported. What may not be empty is left out
where it is missing.
-/

namespace ArchDiagram

open Lexer (IsName wordKind)
open Syntax (nestingLimit relationKeys)

def IsNameText (name : String) : Prop := IsName name.toList

def IsIdentifier (name : String) : Prop :=
  IsNameText name ∧ ∀ keyword : Keyword, name ≠ keyword.word

def IsMemberName (name : String) : Prop :=
  IsNameText name ∧ ∀ modifier : Modifier, name ≠ modifier.word

/-- A name is proper, or it is empty because it is missing. -/
def NamedOr (missing : Prop) (proper : String → Prop) (name : String) : Prop :=
  proper name ∨ name = "" ∧ missing

theorem NamedOr.proper {missing : Prop} {proper : String → Prop} {name : String}
    (named : NamedOr missing proper name) (some_ : name ≠ "") : proper name :=
  named.resolve_right fun empty => some_ empty.1

structure Keyed (map : OrderedMap String) : Prop where
  names : ∀ key ∈ map.keys, IsNameText key
  distinct : map.keys.Nodup

section Shaped

variable (missing : Prop)

/-- Only an enumeration has values. Of all names only those of parameters can be missing. -/
inductive Member.Shaped (kind : EntityKind) : Member → Prop
  | field {decl : FieldDecl} : IsMemberName decl.name → Shaped kind (.field decl)
  | method {decl : MethodDecl} : IsMemberName decl.name →
      (∀ param ∈ decl.params, NamedOr missing IsNameText param.name) → Shaped kind (.method decl)
  | value {decl : ValueDecl} : kind = .enumeration → IsMemberName decl.name →
      Shaped kind (.value decl)

structure EntityDecl.Shaped (decl : EntityDecl) : Prop where
  name : NamedOr missing IsIdentifier decl.name
  stereotype : ∀ name ∈ decl.stereotype, NamedOr missing IsIdentifier name
  extendsNames : ∀ name ∈ decl.extendsNames, IsIdentifier name
  implementsNames : ∀ name ∈ decl.implementsNames, IsIdentifier name
  members : ∀ member ∈ decl.members, member.Shaped missing decl.kind

structure RelationDecl.Shaped (decl : RelationDecl) : Prop where
  target : NamedOr missing IsIdentifier decl.target
  style : Keyed decl.style
  free : ∀ key ∈ relationKeys, key ∉ decl.style.keys

structure StyleDecl.Shaped (decl : StyleDecl) : Prop where
  target : NamedOr missing IsIdentifier decl.target
  styles : Keyed decl.styles

def Declaration.Shaped : Declaration → Prop
  | .entity decl => decl.Shaped missing
  | .relation decl => decl.Shaped missing
  | .note decl => ∀ name ∈ decl.target, IsIdentifier name
  | .style decl => decl.Shaped missing
  | .layout decl => NamedOr missing IsIdentifier decl.target

inductive Item.Shaped : Item → Prop
  | package {name : String} {body : List Item} {span : Span} : NamedOr missing IsIdentifier name →
      (∀ item ∈ body, item.Shaped) → Shaped (.package name body span)
  | declaration {decl : Declaration} : decl.Shaped missing → Shaped (.declaration decl)

structure DiagramDecl.Shaped (decl : DiagramDecl) : Prop where
  name : NamedOr missing IsIdentifier decl.name
  body : ∀ item ∈ decl.body, item.Shaped missing

/-- The types of a program are made of type names, with an argument behind every generic one and no
question mark behind another, and its diagrams are shaped. -/
structure Program.Shaped (program : Program) : Prop where
  types : ∀ type ∈ program.types, type.Within IsTypeName nestingLimit
  diagrams : ∀ diagram ∈ program.diagrams, diagram.Shaped missing

end Shaped

namespace Syntax

/-- A token that reads as a name has the text of one, and its kind is that of its text. -/
def Worded (token : Token) : Prop :=
  token.kind.isName = true → IsNameText token.text ∧ wordKind token.text.toList = token.kind

theorem worded_of_mem_tokens {source : String} {token : Token}
    (member : token ∈ (Lexer.lex source).tokens.dropLast) : Worded token :=
  wordKind_of_printable (Lexer.printable_of_mem_tokens member)

theorem worded_of_reaches {c d : Cursor} (tokens : ∀ token ∈ c.rest, Worded token)
    (reached : c.Reaches d) : ∀ token ∈ d.rest, Worded token :=
  fun token left => tokens token (reached.rest_suffix.subset left)

namespace Worded

variable {token : Token} (worded : Worded token)

include worded

theorem isIdentifier (kind : token.kind = .identifier) : IsIdentifier token.text := by
  obtain ⟨name, same⟩ := worded (by simp [kind, TokenKind.isName])
  refine ⟨name, fun keyword text => ?_⟩
  rw [text, Lexer.wordKind_word, kind] at same
  cases same

theorem isMemberName (named : token.kind.isName = true) (other : isModifier token.kind = false) :
    IsMemberName token.text := by
  obtain ⟨name, same⟩ := worded named
  refine ⟨name, fun modifier text => ?_⟩
  have word : wordKind modifier.word.toList = .keyword (.modifier modifier) :=
    Lexer.wordKind_word (.modifier modifier)
  rw [← same, text, word] at other
  cases other

end Worded

/-- Where the tokens that are left are worded, a run gives what is stated, if all that was reported
by its end is known to be missing. -/
def Builds {α : Type} (missing : Prop) (r : Reader α) (given : α → Prop) : Prop :=
  ∀ ⦃c : Cursor⦄, (∀ token ∈ c.rest, Worded token) →
    Ensures r c fun a d => (d.errors ≠ [] → missing) → given a

theorem errors_ne_nil {c d : Cursor} (reached : c.Reaches d) (loud : c.errors ≠ []) :
    d.errors ≠ [] := by
  intro quiet
  have stays := reached.errors_suffix
  rw [quiet, List.suffix_nil] at stays
  exact loud stays

namespace Builds

variable {α β : Type} {missing : Prop} {r : Reader α} {given : α → Prop}

protected theorem pure {a : α} (holds : given a) : Builds missing (pure a) given :=
  fun _ _ => .pure fun _ => holds

protected theorem bind {f : α → Reader β} {middle : α → Prop} {given : β → Prop}
    (first : Builds missing r middle)
    (next : ∀ a, Builds missing (f a) fun b => middle a → given b) :
    Builds missing (r >>= f) given := by
  intro c tokens
  refine .bind (first tokens) fun a m reached holds => ?_
  refine .mono (next a (worded_of_reaches tokens reached)) ?_
  intro b d further rest known
  exact rest known (holds fun loud => known (errors_ne_nil further loud))

protected theorem ite {p : Prop} [Decidable p] {s : Reader α} (yes : p → Builds missing r given)
    (no : ¬ p → Builds missing s given) : Builds missing (if p then r else s) given :=
  fun _ tokens => .ite (yes · tokens) (no · tokens)

theorem mono {weak : α → Prop} (builds : Builds missing r given)
    (implies : ∀ a, given a → weak a) : Builds missing r weak :=
  fun _ tokens => .mono (builds tokens) fun a _ _ holds known => implies a (holds known)

theorem of_outcome {clean : Cursor → α → Cursor → Prop} (out : ∀ c, Outcome r c (clean c)) :
    Builds missing r fun _ => True :=
  fun c _ => .mono (.of_outcome (out c)) fun _ _ _ _ _ => trivial

theorem after {s : Reader β} {clean : Cursor → β → Cursor → Prop} {f : β → Reader α}
    (out : ∀ c, Outcome s c (clean c)) (next : ∀ b, Builds missing (f b) given) :
    Builds missing (s >>= f) given :=
  .bind (.of_outcome out) fun b => (next b).mono fun _ holds _ => holds

theorem current_bind {f : Token → Reader α} (next : ∀ token, Builds missing (f token) given) :
    Builds missing (current >>= f) given :=
  fun c tokens => .current_bind (next c.current tokens)

theorem get_bind {f : Cursor → Reader α} (next : ∀ c, Builds missing (f c) given) :
    Builds missing (get >>= f) given := fun c tokens => .get_bind (next c tokens)

theorem value_bind {value : Except Fault β} {f : β → Reader α}
    (next : ∀ b, Builds missing (f b) given) : Builds missing (liftM value >>= f) given :=
  fun _ tokens => .value_bind fun b _ => next b tokens

theorem wrapped {f : α → β} {given' : β → Prop} (builds : Builds missing r given)
    (shape : ∀ a, given a → given' (f a)) :
    Builds missing (r >>= fun a => pure (some (f a))) fun found => ∀ b ∈ found, given' b :=
  .bind builds fun a => .pure fun holds => by simpa using shape a holds

theorem spanned {first : Token} {f : Span → α} (holds : ∀ span, given (f span)) :
    Builds missing (spanFrom first >>= fun span => pure (f span)) given :=
  .after (fun _ => outcome_spanFrom first) fun span => .pure (holds span)

theorem composes (missing : Prop) (given : α → Prop) :
    Composes (fun c => ∀ token ∈ c.rest, Worded token) fun c as d =>
      c.Reaches d ∧ ((d.errors ≠ [] → missing) → ∀ a ∈ as, given a) where
  kept _ _ := worded_of_reaches
  nil _ _ _ reached := ⟨reached, fun _ => by simp⟩
  append c m d xs ys := by
  -- Things that are built one after the other are all as stated, since reports only grow.
    rintro ⟨reached, first⟩ ⟨further, rest⟩
    refine ⟨reached.trans further, fun known => List.forall_mem_append.2 ⟨?_, rest known⟩⟩
    exact first fun loud => known (errors_ne_nil further loud)

theorem reaching (builds : Builds missing r given) :
    ∀ c, (∀ token ∈ c.rest, Worded token) → Ensures r c fun a d =>
      c.Reaches d ∧ ((d.errors ≠ [] → missing) → given a) :=
  fun _ tokens => .mono (builds tokens) fun _ _ reached holds => ⟨reached, holds⟩

theorem listed {r : Reader (Option α)} (builds : Builds missing r fun found => ∀ a ∈ found, given a) :
    Builds missing r fun found => ∀ a ∈ found.toList, given a :=
  builds.mono fun _ holds => by simpa using holds

theorem repeatWhile {round : Reader (Option α)}
    (rounds : Builds missing round fun found => ∀ a ∈ found, given a) :
    Builds missing (repeatWhile round) fun as => ∀ a ∈ as, given a := by
  intro c tokens
  refine .mono (.repeatWhile (composes missing given) rounds.listed.reaching tokens) ?_
  exact fun _ _ _ holds => holds.2

theorem separatedByCommas {item : Reader α} (items : Builds missing item given) :
    Builds missing (separatedByCommas item) fun as => ∀ a ∈ as, given a := by
  intro c tokens
  have single : Builds missing item fun a => ∀ b ∈ [a], given b :=
    items.mono fun _ holds => List.forall_mem_singleton.2 holds
  refine .mono (.separatedByCommas (composes missing given) single.reaching tokens) ?_
  exact fun _ _ _ holds => holds.2

theorem many {closing : TokenKind} {region : Region} {item : Reader (Option α)}
    (items : Builds missing item fun found => ∀ a ∈ found, given a) :
    Builds missing (many closing region item) fun as => ∀ a ∈ as, given a := by
  intro c tokens
  refine .mono (.many (composes missing given) items.listed.reaching tokens) ?_
  exact fun _ _ _ holds => holds.2

end Builds

section Names

variable {missing : Prop}

theorem builds_expectIdentifier :
    Builds missing expectIdentifier (NamedOr missing IsIdentifier) := by
  intro c tokens
  by_cases here : c.current.kind = .identifier
  · have worded := known_current tokens (by simp [here])
    exact .of_run (run_expectText_of_eq here) (.advance .refl) fun _ =>
      .inl (worded.isIdentifier here)
  · exact .of_run (run_expectText_of_ne here) (.report _ .refl) fun known =>
      .inr ⟨rfl, known (List.cons_ne_nil _ _)⟩

theorem builds_expectName : Builds missing expectName (NamedOr missing IsNameText) := by
  intro c tokens
  by_cases here : c.current.kind.isName = true
  · have worded := known_current tokens (ne_end_of_isName here)
    exact .of_run (run_expectName_of_name here) (.advance .refl) fun _ => .inl (worded here).1
  · exact .of_run (run_expectName_of_other here) (.report _ .refl) fun known =>
      .inr ⟨rfl, known (List.cons_ne_nil _ _)⟩

theorem ensures_modifiers (c : Cursor) :
    Ensures modifiers c fun _ d => isModifier d.current.kind = false := by
  intro words d run
  obtain ⟨m, -, last⟩ := chain_of_repeatWhile takesToken_modifierRound run
  refine ⟨(outcome_modifiers c).reaches run, ?_⟩
  rw [modifierRound, run_current_bind] at last
  split at last
  · cases (Prod.mk.inj (Except.ok.inj last)).1
  · next other =>
    obtain ⟨-, rfl⟩ := Prod.mk.inj (Except.ok.inj last)
    unfold isModifier
    split
    · next word here => exact absurd here (other word)
    · rfl

theorem Builds.behind_modifiers {α : Type} {given : α → Prop} {f : List Modifier → String → Reader α}
    (next : ∀ words name, (name ≠ "" → IsMemberName name) → Builds missing (f words name) given) :
    Builds missing (modifiers >>= fun words => expectName >>= f words) given := by
  intro c tokens
  refine .bind (ensures_modifiers c) fun words m reached other => ?_
  have left := worded_of_reaches tokens reached
  have name : Ensures expectName m fun name _ => name ≠ "" → IsMemberName name := by
    by_cases here : m.current.kind.isName = true
    · have worded := known_current left (ne_end_of_isName here)
      exact .of_run (run_expectName_of_name here) (.advance .refl) fun _ =>
        worded.isMemberName here other
    · exact .of_run (run_expectName_of_other here) (.report _ .refl) fun some_ => absurd rfl some_
  refine .bind name fun text d further proper => ?_
  exact next words text proper (worded_of_reaches left further)

end Names

end Syntax

end ArchDiagram
