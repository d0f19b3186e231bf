import ArchDiagram.Proofs.Grammar.Completeness
import ArchDiagram.Proofs.Bare

/-!
A semicolon behind a field or method can be part of it or stand for itself. Whichever way it is
derived, there is a derivation in which it is part of it, and the two trees differ in spans alone.
-/

namespace ArchDiagram.Syntax.Grammar

variable {levels : Nat} {kind : EntityKind} {xs ys : List Token} {decl : Member} {token : Token}

theorem Spans.extend {span : Span} (token : Token) (spans : Spans xs span) :
    ∃ wider, Spans (xs ++ [token]) wider := by
  obtain ⟨front, -⟩ := spans
  exact ⟨_, .mk (by rw [List.head?_append, front]; rfl) List.getLast?_concat⟩

theorem Separator.extend (before : List Token) {semicolon : List Token}
    (separated : Separator [.mark .semicolon] semicolon) (kind : token.kind = .mark .semicolon)
    (bare : ¬ ∃ last, (before ++ semicolon).getLast? = some last ∧
      last.kind = .mark .semicolon) : Separator [.mark .semicolon] (semicolon ++ [token]) := by
  cases separated with
  | absent => exact .present (by simp [kind])
  | present here => exact absurd ⟨_, List.getLast?_concat, by simpa using here⟩ bare

theorem Field.extend {decl : FieldDecl} (derived : Field levels xs decl)
    (semicolon : token.kind = .mark .semicolon)
    (bare : ¬ ∃ last, xs.getLast? = some last ∧ last.kind = .mark .semicolon) :
    ∃ wider, Field levels (xs ++ [token]) wider ∧
      wider.mapSpans unspan = decl.mapSpans unspan := by
  obtain @⟨vis, mods, name, colon, ys, assigned, before, _, _, _, _, _, _, marked, modified, named,
    colonKind, typed, valued, separated, rfl, spans⟩ := derived
  obtain ⟨wider, spans⟩ := spans.extend token
  have separated := separated.extend (vis ++ (mods ++ name :: colon :: (ys ++ assigned)))
    semicolon (by simpa using bare)
  exact ⟨_, .mk marked modified named colonKind typed valued separated (by simp) spans, rfl⟩

theorem Method.extend {decl : MethodDecl} (derived : Method levels xs decl)
    (semicolon : token.kind = .mark .semicolon)
    (bare : ¬ ∃ last, xs.getLast? = some last ∧ last.kind = .mark .semicolon) :
    ∃ wider, Method levels (xs ++ [token]) wider ∧
      wider.mapSpans unspan = decl.mapSpans unspan := by
  obtain @⟨vis, mods, name, list, colon, ys, before, _, _, _, _, _, _, marked, modified, named,
    listed, colonKind, typed, separated, rfl, spans⟩ := derived
  obtain ⟨wider, spans⟩ := spans.extend token
  have separated := separated.extend (vis ++ (mods ++ name :: (list ++ colon :: ys)))
    semicolon (by simpa using bare)
  exact ⟨_, .mk marked modified named listed colonKind typed separated (by simp) spans, rfl⟩

theorem not_settled
    (unsettled : ¬ ((∃ last, xs.getLast? = some last ∧ last.kind = .mark .semicolon) ∨
      ∀ token, ys.head? = some token → token.kind ≠ .mark .semicolon)) :
    (¬ ∃ last, xs.getLast? = some last ∧ last.kind = .mark .semicolon) ∧
      ∃ token, ys.head? = some token ∧ token.kind = .mark .semicolon := by
  constructor
  · intro ends
    exact unsettled (.inl ends)
  · by_contra none_
    exact unsettled (.inr fun token front semicolon => none_ ⟨token, front, semicolon⟩)

/-- A field or method that is followed by a semicolon of which it has none takes it. -/
theorem MemberOf.extend (derived : MemberOf levels kind xs decl)
    (unsettled : ¬ Settled decl xs ys) : ∃ token rest wider, ys = token :: rest ∧
      token.kind = .mark .semicolon ∧ MemberOf levels kind (xs ++ [token]) wider ∧
      wider.mapSpans unspan = decl.mapSpans unspan ∧ Settled wider (xs ++ [token]) rest := by
  have ends {token : Token} (semicolon : token.kind = .mark .semicolon) :
      ∃ last, (xs ++ [token]).getLast? = some last ∧ last.kind = .mark .semicolon :=
    ⟨token, List.getLast?_concat, semicolon⟩
  cases derived with
  -- A value takes no semicolon, so it is always settled.
  | value => exact absurd trivial unsettled
  | field derived =>
    obtain ⟨bare, token, front, semicolon⟩ := not_settled unsettled
    obtain ⟨rest, rfl⟩ := List.head?_eq_some_iff.mp front
    obtain ⟨wider, longer, same⟩ := derived.extend semicolon bare
    exact ⟨token, rest, .field wider, rfl, semicolon, .field longer, congrArg Member.field same,
      .inl (ends semicolon)⟩
  | method derived =>
    obtain ⟨bare, token, front, semicolon⟩ := not_settled unsettled
    obtain ⟨rest, rfl⟩ := List.head?_eq_some_iff.mp front
    obtain ⟨wider, longer, same⟩ := derived.extend semicolon bare
    exact ⟨token, rest, .method wider, rfl, semicolon, .method longer, congrArg Member.method same,
      .inl (ends semicolon)⟩

theorem Members.attach {decls : List Member} (derived : Members false levels kind xs decls) :
    ∃ attached, Members true levels kind xs attached ∧
      attached.map (·.mapSpans unspan) = decls.map (·.mapSpans unspan) := by
  induction derived with
  | nil => exact ⟨[], .nil, rfl⟩
  | separator separates _ ih =>
    obtain ⟨attached, derived, same⟩ := ih
    exact ⟨attached, .separator separates derived, same⟩
  | @member xs ys first decls derived _ _ ih =>
    obtain ⟨attached, others, same⟩ := ih
    by_cases settled : Settled first xs ys
    · exact ⟨first :: attached, .member derived others fun _ => settled, by simp [same]⟩
    · obtain ⟨token, rest, wider, rfl, semicolon, longer, similar, settled⟩ :=
        derived.extend settled
      -- The semicolon stood for itself before the members behind, and now it ends this one.
      have behind : Members true levels kind rest attached := by
        generalize whole : token :: rest = tokens at others
        cases others with
        | nil => simp at whole
        | separator _ others =>
          obtain ⟨-, rfl⟩ := List.cons.inj whole
          exact others
        | member first _ _ =>
          -- No member begins with a semicolon.
          obtain ⟨head, front, start⟩ := isMemberStart_of_member first
          have same := congrArg List.head? whole
          rw [List.head?_cons, List.head?_append, front] at same
          obtain rfl : token = head := Option.some.inj same
          simp [semicolon, isMemberStart, visibility?, TokenKind.isName] at start
      refine ⟨wider :: attached, ?_, by simp [same, similar]⟩
      rw [← List.singleton_append, ← List.append_assoc]
      exact .member longer behind fun _ => settled

section Shapes

variable {α β : Type} {f : α → β}

theorem Star.attach {rule strict : Rule α} {as : List α}
    (each : ∀ xs a, rule xs a → ∃ b, strict xs b ∧ f b = f a) (derived : Star rule xs as) :
    ∃ bs, Star strict xs bs ∧ bs.map f = as.map f := by
  induction derived with
  | nil => exact ⟨[], .nil, rfl⟩
  | cons first _ ih =>
    obtain ⟨b, one, same⟩ := each _ _ first
    obtain ⟨bs, others, alike⟩ := ih
    exact ⟨b :: bs, .cons one others, by simp [same, alike]⟩

theorem Between.attach {opening closing : TokenKind} {rule strict : Rule α} {a : α}
    (each : ∀ xs a, rule xs a → ∃ b, strict xs b ∧ f b = f a)
    (derived : Between opening closing rule xs a) :
    ∃ b, Between opening closing strict xs b ∧ f b = f a := by
  obtain ⟨first, inner, last⟩ := derived
  obtain ⟨b, strict, same⟩ := each _ _ inner
  exact ⟨b, .mk first strict last, same⟩

end Shapes

theorem Entity.attach {decl : EntityDecl} (derived : Entity false levels xs decl) :
    ∃ attached, Entity true levels xs attached ∧
      attached.mapSpans unspan = decl.mapSpans unspan := by
  obtain ⟨modified, word, name, stereo, extended, implemented, body, shape, spans⟩ := derived
  cases body with
  | absent => exact ⟨_, .mk modified word name stereo extended implemented .absent shape spans, rfl⟩
  | present body =>
    obtain ⟨members, body, same⟩ := body.attach (f := List.map (·.mapSpans unspan))
      fun _ _ => Members.attach
    exact ⟨_, .mk modified word name stereo extended implemented (.present body) shape spans, by
      simp [EntityDecl.mapSpans, same]⟩

theorem DeclarationOf.attach {decl : Declaration} (derived : DeclarationOf false levels xs decl) :
    ∃ attached, DeclarationOf true levels xs attached ∧
      attached.mapSpans unspan = decl.mapSpans unspan := by
  cases derived with
  | entity derived =>
    obtain ⟨attached, derived, same⟩ := derived.attach
    exact ⟨_, .entity derived, congrArg Declaration.entity same⟩
  | relation derived => exact ⟨_, .relation derived, rfl⟩
  | note derived => exact ⟨_, .note derived, rfl⟩
  | style derived => exact ⟨_, .style derived, rfl⟩
  | layout derived => exact ⟨_, .layout derived, rfl⟩

theorem ItemWith.attach {rule strict : Rule (List Item)} {item : Item}
    (bodies : ∀ xs items, rule xs items → ∃ attached, strict xs attached ∧
      attached.map (·.mapSpans unspan) = items.map (·.mapSpans unspan))
    (derived : ItemWith false levels rule xs item) :
    ∃ attached, ItemWith true levels strict xs attached ∧
      attached.mapSpans unspan = item.mapSpans unspan := by
  cases derived with
  | package word name block spans =>
    obtain ⟨items, block, same⟩ := block.attach bodies
    refine ⟨_, .package word name block spans, ?_⟩
    simp [Item.mapSpans, Item.mapAllSpans_eq, same]
  | declaration derived =>
    obtain ⟨attached, derived, same⟩ := derived.attach
    exact ⟨_, .declaration derived, congrArg Item.declaration same⟩

theorem attach_itemsIn {items : List Item} (derived : ItemsIn false levels xs items) :
    ∃ attached, ItemsIn true levels xs attached ∧
      attached.map (·.mapSpans unspan) = items.map (·.mapSpans unspan) := by
  induction levels generalizing xs items with
  | zero => exact Star.attach (fun _ _ => ItemWith.attach fun _ _ never => never.elim) derived
  | succ levels ih => exact Star.attach (fun _ _ => ItemWith.attach fun _ _ => ih) derived

/-- Whatever the grammar derives, it derives with every semicolon attached that can be. -/
theorem Parts.attach {parts : List TopLevel} (derived : Parts false levels xs parts) :
    ∃ attached, Parts true levels xs attached ∧
      attached.map (·.mapSpans unspan) = parts.map (·.mapSpans unspan) := by
  refine Star.attach (fun tokens part one => ?_) derived
  cases one with
  | imported one => exact ⟨_, .imported one, rfl⟩
  | diagram one =>
    obtain ⟨word, name, colon, kind, shown, block, spans⟩ := one
    obtain ⟨items, block, same⟩ := block.attach (f := List.map (·.mapSpans unspan))
      fun _ _ => attach_itemsIn
    refine ⟨_, .diagram (.mk word name colon kind shown block spans), ?_⟩
    simp [TopLevel.mapSpans, DiagramDecl.mapSpans, Item.mapAllSpans_eq, same]

end ArchDiagram.Syntax.Grammar
