import ArchDiagram.Proofs.Grammar.Completeness
import ArchDiagram.Proofs.Sites.Body
import ArchDiagram.Proofs.WellFormed
import ArchDiagram.Proofs.Writes

/-!
Relations on their way from the tokens between their brackets to the object model. A declaration
holds what was written last under each key that has a meaning, and all other writes as a map; the
object model has one record for each declaration, numbered through the whole diagram.
-/

namespace ArchDiagram

namespace Syntax

open Grammar (Between Setting Star)

section Settings

variable {value : Reader String} {values separators : List TokenKind} {closing : TokenKind}
  {c d : Cursor} {tokens : List Token} {writes : List (String × String)}

/-- Settings up to a closing mark are read one by one. Behind each of them stands the key of the next
one or the closing mark, and none of these is taken for a separator. -/
theorem repeatWhile_settings (region : Region)
    (readsValue : ∀ token c d, token.kind ∈ values → c.Takes [token] d →
      value.run c = .ok (token.text, d))
    (marks : ∀ kind ∈ separators, kind.isName = false) (mark : closing.isName = false)
    (apart : closing ∉ separators) (derived : Star (Setting values separators) tokens writes)
    (taken : c.Takes tokens d) (closes : d.current.kind = closing) :
    repeatWhile (manyRound closing region (setting value separators)) c =
      .ok (writes.map some, d) := by
  -- What follows a setting begins with a word, which separates nothing.
  have heads {ys : List Token} {more : List (String × String)}
      (star : Star (Setting values separators) ys more) (token : Token)
      (front : ys.head? = some token) : token.kind ∉ separators := by
    cases star with
    | nil => cases front
    | cons first =>
      obtain ⟨named⟩ := first
      obtain rfl := Option.some.inj front
      exact fun separates =>
        Bool.false_ne_true ((marks _ separates).symm.trans (Grammar.isWord_iff.1 named))
  induction derived generalizing c with
  | nil =>
    obtain rfl := Cursor.takes_nil_iff.1 taken
    exact repeatWhile_of_none (run_manyRound_of_end (.inr closes))
  | cons first rest ih =>
    obtain ⟨m, here, further⟩ := Cursor.takes_append_iff.1 taken
    have next := further.current_of (· ∉ separators) (heads rest) (closes ▸ apart)
    have read := accepts_setting readsValue first here next
    obtain ⟨named⟩ := first
    have opens : c.current.kind ≠ closing := by
      rw [here.current_eq]
      exact fun same => Bool.false_ne_true (mark.symm.trans (same ▸ Grammar.isWord_iff.1 named))
    have round : (manyRound closing region (setting value separators)).run c = _ :=
      here.manyRound (List.cons_ne_nil _ _) opens read
    rw [repeatWhile_of_some round (here.length_lt (List.cons_ne_nil _ _)), ih further]
    rfl

end Settings

theorem run_attributes {c d : Cursor} {tokens : List Token} {writes : List (String × String)}
    (derived : Between (.mark .leftBracket) (.mark .rightBracket)
      (Star (Setting [.color, .string] [.mark .comma])) tokens writes) (taken : c.Takes tokens d) :
    attributes.run c = .ok (writes, d) := by
  obtain ⟨openingKind, settings, closingKind⟩ := derived
  obtain ⟨m, first, more⟩ := taken.uncons
  obtain ⟨n, middle, last⟩ := Cursor.takes_append_iff.1 more
  have read := repeatWhile_settings .relationAttributes (fun _ _ _ => run_attributeValue)
    (by simp [TokenKind.isName]) rfl (by simp) settings middle (last.current_eq ▸ closingKind)
  have all : (writes.map some).filterMap id = writes := by simp [List.filterMap_map]
  rw [attributes, run_bind_of_ok (first.accept openingKind), if_pos rfl,
    run_bind_of_ok (run_many read), run_bind_of_ok (run_discard (last.expect closingKind)), all]
  rfl

theorem run_relation {c : Cursor} {source symbol target : Token} {tokens behind : List Token}
    {operator : RelationOperator} {writes : List (String × String)}
    (sourceKind : source.kind = .identifier) (shown : relationOperator symbol.text = .ok operator)
    (targetKind : target.kind = .identifier)
    (derived : Between (.mark .leftBracket) (.mark .rightBracket)
      (Star (Setting [.color, .string] [.mark .comma])) tokens writes)
    (whole : c.rest = source :: symbol :: target :: (tokens ++ behind)) :
    ∃ decl d, relation.run c = .ok (decl, d) ∧ d.rest = behind ∧ d.errors = c.errors ∧
      decl.source = source.text ∧ decl.target = target.text ∧ decl.operator = operator ∧
      Says writes decl := by
  have front : c.rest = (source :: symbol :: target :: tokens) ++ behind := whole
  obtain ⟨d, taken, ends⟩ := Cursor.takes_front front
  obtain ⟨c₁, first, more⟩ := taken.uncons
  obtain ⟨c₂, second, others⟩ := more.uncons
  obtain ⟨c₃, third, last⟩ := others.uncons
  have run : relation.run c = .ok ({
      source := source.text
      target := target.text
      operator := operator
      label := lastValue? "label" writes
      sourceMultiplicity := lastValue? "fromMult" writes
      targetMultiplicity := lastValue? "toMult" writes
      style := .ofList (styleWrites writes)
      span := ⟨source.position, max d.lastStop source.position.offset⟩ }, d) := by
    rw [relation, run_bind_of_ok (first.expect sourceKind), run_bind_of_ok second.runAdvance,
      shown, run_bind_of_ok (run_ok operator), expectIdentifier,
      run_bind_of_ok (third.expectText targetKind), run_bind_of_ok (run_attributes derived last)]
    rfl
  exact ⟨_, d, run, ends, taken.errors_eq, rfl, rfl, rfl, says_writes ..⟩

end Syntax

namespace Analysis

open Syntax (Cursor Says relationOperator)
open Syntax.Grammar (Between Setting Star)

/-- The record of the relation with this number. It keeps what its declaration says, and the order
of its ends, whichever way its operator points. -/
structure IsRecord (number : Nat) (decl : RelationDecl) (relation : Model.Relation) : Prop where
  id : relation.id = "rel_" ++ toString number
  ends : relation.source = decl.source ∧ relation.target = decl.target
  operator : relation.kind = decl.operator.kind ∧ relation.isReversed = decl.operator.isReversed
  label : relation.label = decl.label
  multiplicities : relation.sourceMultiplicity = decl.sourceMultiplicity ∧
    relation.targetMultiplicity = decl.targetMultiplicity
  styles : relation.styles = decl.style

/-- A relation that is written with brackets is read as a whole from wherever it stands, and says
what its attributes do: the last value under each key that has a meaning, and the map of all other
writes. The object model has the records of the relations of a diagram in document order, those
inside packages among them, and numbers them one after the other. -/
theorem relations_carried :
    (∀ (c : Cursor) (source symbol target : Token) (tokens behind : List Token)
      (operator : RelationOperator) (writes : List (String × String)),
      c.rest = source :: symbol :: target :: (tokens ++ behind) →
      source.kind = .identifier → relationOperator symbol.text = .ok operator →
      target.kind = .identifier →
      Between (.mark .leftBracket) (.mark .rightBracket)
        (Star (Setting [.color, .string] [.mark .comma])) tokens writes →
      ∃ decl d, Syntax.relation.run c = .ok (decl, d) ∧ d.rest = behind ∧ d.errors = c.errors ∧
        decl.source = source.text ∧ decl.target = target.text ∧ decl.operator = operator ∧
        Says writes decl) ∧
    ∀ diagram : DiagramDecl, ∃ decls : List RelationDecl,
      Enumerates (fun path decl => DeclaredAt diagram.body path (.relation decl)) decls ∧
      decls.length = (lowerDiagram diagram).relations.length ∧
      (∀ number decl relation, decls[number]? = some decl →
        (lowerDiagram diagram).relations[number]? = some relation →
        IsRecord number decl relation) ∧
      ((lowerDiagram diagram).relations.map (·.id)).Nodup := by
  refine ⟨fun c source symbol target tokens behind operator writes whole sourceKind shown targetKind
    derived => Syntax.run_relation sourceKind shown targetKind derived whole, fun diagram =>
    ⟨relationDecls diagram.body, enumerates_relations diagram.body, ?_, ?_, nodup_relationIds _⟩⟩
  · exact List.length_mapIdx.symm
  · intro number decl relation here there
    have same : lowerRelation number decl = relation := by
      simpa [lowerDiagram, here] using there
    subst same
    exact ⟨rfl, ⟨rfl, rfl⟩, ⟨rfl, rfl⟩, rfl, ⟨rfl, rfl⟩, rfl⟩

/-- A reversed relation with a label that is written twice and with a keyword as a name, and two
relations of which one is inside a package. -/
theorem relations_carried_reversed :
    let token (kind : TokenKind) (text : String) : Token := ⟨⟨kind, text⟩, .start, 0⟩
    let equals := token (.mark .equals) "="
    let attributes := [token .identifier "label", equals, token .string "a",
      token (.keyword .note) "note", equals, token .color "#fff", token (.mark .comma) ",",
      token .identifier "label", equals, token .string "b"]
    let block := token (.mark .leftBracket) "[" :: (attributes ++ [token (.mark .rightBracket) "]"])
    let cursor := Cursor.ofTokens (token .identifier "A" ::
      token (.relation .inheritanceReversed) "<|--" :: token .identifier "B" :: block)
    let span : Span := ⟨.start, 0⟩
    let relation : Item := .declaration (.relation
      ⟨"A", "B", .inheritanceReversed, none, none, none, .empty, span⟩)
    let model := lowerDiagram ⟨"d", .classes, [.package "p" [relation] span, relation], span⟩
    (∃ decl d, Syntax.relation.run cursor = .ok (decl, d) ∧ d.rest = [] ∧ decl.source = "A" ∧
      decl.operator.isReversed = true ∧
      Says [("label", "a"), ("note", "#fff"), ("label", "b")] decl) ∧
    (model.relations.map (·.id)).Nodup := by
  intro token equals attributes block cursor span relation model
  have settings : Star (Setting [.color, .string] [.mark .comma]) attributes
      [("label", "a"), ("note", "#fff"), ("label", "b")] :=
    .cons (Setting.mk .identifier rfl (by decide) .absent)
      (.cons (Setting.mk (.keyword _) rfl (by decide) (.present (by decide)))
        (.cons (Setting.mk .identifier rfl (by decide) .absent) .nil))
  obtain ⟨decl, d, run, ends, -, source, -, operator, told⟩ := relations_carried.1 cursor
    (token .identifier "A") (token (.relation .inheritanceReversed) "<|--") (token .identifier "B")
    block [] .inheritanceReversed _ (by decide +kernel) rfl (by decide) rfl
    (Between.mk rfl settings rfl)
  obtain ⟨-, -, -, -, distinct⟩ := relations_carried.2
    ⟨"d", .classes, [.package "p" [relation] span, relation], span⟩
  exact ⟨⟨decl, d, run, ends, source, operator ▸ rfl, told⟩, distinct⟩

end Analysis

end ArchDiagram
