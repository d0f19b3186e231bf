import ArchDiagram.Proofs.Printing
import ArchDiagram.Proofs.WithinBudget

/-!
The types that occur in a program. Whatever is reported about a source, the types of its program are
made of type names and nested within the limit.
-/

namespace ArchDiagram

open Lexer (IsName wordKind)
open Syntax (isTypeName nestingLimit)

mutual

def TypeExpr.nested : TypeExpr → List TypeExpr
  | .simple name span => [.simple name span]
  | .generic base args span => .generic base args span :: TypeExpr.allNested args
  | .nullable inner span => .nullable inner span :: inner.nested

def TypeExpr.allNested : List TypeExpr → List TypeExpr
  | [] => []
  | type :: rest => type.nested ++ TypeExpr.allNested rest

end

def Member.types : Member → List TypeExpr
  | .field decl => decl.type.nested
  | .method decl => decl.params.flatMap (·.type.nested) ++ decl.returnType.nested
  | .value _ => []

def Declaration.types : Declaration → List TypeExpr
  | .entity decl => decl.members.flatMap (·.types)
  | .relation _ | .note _ | .style _ | .layout _ => []

mutual

def Item.types : Item → List TypeExpr
  | .package _ body _ => Item.allTypes body
  | .declaration decl => decl.types

def Item.allTypes : List Item → List TypeExpr
  | [] => []
  | item :: rest => item.types ++ Item.allTypes rest

end

def Program.types (program : Program) : List TypeExpr :=
  program.diagrams.flatMap fun diagram => Item.allTypes diagram.body

theorem TypeExpr.allNested_eq (types : List TypeExpr) :
    TypeExpr.allNested types = types.flatMap (·.nested) := by
  induction types with
  | nil => rfl
  | cons type rest ih => rw [TypeExpr.allNested, ih, List.flatMap_cons]

theorem Item.allTypes_eq (items : List Item) : Item.allTypes items = items.flatMap (·.types) := by
  induction items with
  | nil => rfl
  | cons item rest ih => rw [Item.allTypes, ih, List.flatMap_cons]

section Within

variable {names : String → Prop} {budget : Nat} {type : TypeExpr}

theorem TypeExpr.Within.mono {more : Nat} (within : type.Within names budget)
    (le : budget ≤ more) : type.Within names more := by
  induction within generalizing more with
  | simple holds => exact .simple holds
  | generic holds some_ _ ih =>
    obtain ⟨more, rfl⟩ := Nat.exists_eq_add_of_le' (Nat.zero_lt_of_lt le)
    exact .generic holds some_ fun arg member => ih arg member (Nat.le_of_succ_le_succ le)
  | nullable _ single ih => exact .nullable (ih le) single

theorem TypeExpr.Within.nested (within : type.Within names budget) :
    ∀ inner ∈ type.nested, inner.Within names budget := by
  induction within with
  | simple holds =>
    intro inner member
    rw [List.mem_singleton.1 member]
    exact .simple holds
  | generic holds some_ args ih =>
    intro inner member
    rw [TypeExpr.nested, TypeExpr.allNested_eq] at member
    rcases List.mem_cons.1 member with rfl | member
    · exact .generic holds some_ args
    · obtain ⟨arg, inside, member⟩ := List.mem_flatMap.1 member
      exact (ih arg inside inner member).mono (Nat.le_succ _)
  | nullable holds single ih =>
    intro inner member
    rcases List.mem_cons.1 member with rfl | member
    · exact .nullable holds single
    · exact ih inner member

theorem Member.Within.types {member : Member} (within : member.Within names budget) :
    ∀ type ∈ member.types, type.Within names budget := by
  cases member with
  | field decl => exact TypeExpr.Within.nested within
  | method decl =>
    intro type inside
    rcases List.mem_append.1 inside with inside | inside
    · obtain ⟨param, given, inside⟩ := List.mem_flatMap.1 inside
      exact (within.1 param given).nested type inside
    · exact within.2.nested type inside
  | value => simp [Member.types]

theorem Declaration.Within.types {decl : Declaration} (within : decl.Within names budget) :
    ∀ type ∈ decl.types, type.Within names budget := by
  cases decl with
  | entity decl =>
    intro type inside
    obtain ⟨member, given, inside⟩ := List.mem_flatMap.1 inside
    exact (within member given).types type inside
  | _ => simp [Declaration.types]

theorem Item.Within.types {item : Item} (within : item.Within names budget) :
    ∀ type ∈ item.types, type.Within names budget := by
  induction within with
  | declaration holds => exact holds.types
  | package _ ih =>
    intro type inside
    rw [Item.types, Item.allTypes_eq] at inside
    obtain ⟨item, given, inside⟩ := List.mem_flatMap.1 inside
    exact (ih item given type inside).mono (Nat.le_succ _)
  | emptied => simp [Item.types, Item.allTypes]

theorem Program.Within.types {program : Program} (within : program.Within names) :
    ∀ type ∈ program.types, type.Within names nestingLimit := by
  intro type inside
  obtain ⟨diagram, given, inside⟩ := List.mem_flatMap.1 inside
  rw [Item.allTypes_eq] at inside
  obtain ⟨item, member, inside⟩ := List.mem_flatMap.1 inside
  exact (within diagram given item member).types type inside

end Within

/-- A name that is read as the name of a type: no keyword but those of the built-in types. -/
def IsTypeName (name : String) : Prop :=
  IsName name.toList ∧ isTypeName (wordKind name.toList) = true

theorem wordKind_of_printable {lexeme : Lexeme} (printable : Lexer.Printable lexeme)
    (named : lexeme.kind.isName = true) :
    IsName lexeme.text.toList ∧ wordKind lexeme.text.toList = lexeme.kind := by
  obtain ⟨kind, text⟩ := lexeme
  dsimp only at named
  obtain rfl | ⟨word, free⟩ := printable
  · cases named
  · dsimp only at word free ⊢
    cases kind with
    | identifier =>
      have name : IsName text.toList := by
        generalize text.toList = letters at word
        cases word with
        | fixed fixed => simp [TokenKind.spelling?] at fixed
        | identifier name => exact name
      have wins := Lexer.wins_wordKind text.toList
      have own := Lexer.word_wordKind name
      generalize wordKind text.toList = kind at wins own ⊢
      cases wins with
      | same => exact ⟨name, rfl⟩
      | keyword keyword =>
        -- A keyword wins over an identifier, so no token with its text is an identifier.
        have reserved := Lexer.text_of_word_keyword own
        exact absurd (String.toList_injective reserved) (free rfl keyword)
    | keyword keyword =>
      rw [← Lexer.text_of_word_keyword word]
      exact ⟨Lexer.isName_word keyword, Lexer.wordKind_word keyword⟩
    | _ => cases named

theorem isTypeName_of_mem_tokens {source : String} {token : Token}
    (member : token ∈ (Lexer.lex source).tokens) (named : isTypeName token.kind = true) :
    IsTypeName token.text := by
  have inside := Lexer.mem_dropLast_tokens member (Syntax.isTypeName_ne_end named)
  have isName : token.kind.isName = true := by
    unfold isTypeName at named
    split at named <;> simp_all [TokenKind.isName]
  obtain ⟨name, kind⟩ := wordKind_of_printable (Lexer.printable_of_mem_tokens inside) isName
  exact ⟨name, kind ▸ named⟩

theorem isTypeName_any : IsTypeName "any" :=
  ⟨⟨by decide, List.all_eq_true.1 (by decide)⟩, by decide⟩

theorem within_of_parse {source : String} {parsed : Syntax.Parsed}
    (returned : Syntax.parse source = .ok parsed) {type : TypeExpr}
    (occurs : type ∈ parsed.program.types) : type.Within IsTypeName nestingLimit := by
  cases run : Syntax.parseTokens (Lexer.lex source).tokens with
  | error fault =>
    rw [Syntax.parse, run] at returned
    cases returned
  | ok found =>
    rw [Syntax.parse, run] at returned
    obtain rfl := Except.ok.inj returned
    have within :=
      Syntax.within_of_parseTokens (fun _ => isTypeName_of_mem_tokens) isTypeName_any run
    exact within.types type occurs

end ArchDiagram
