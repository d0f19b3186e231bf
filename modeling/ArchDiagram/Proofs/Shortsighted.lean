import ArchDiagram.Proofs.Progress
import ArchDiagram.Proofs.Grammar.Completeness.Member

/-!
How readers are made. A reader decides by the token at the cursor and the one behind it, and behind
an opening mark it does not look even that far. All it does besides is to take tokens and to report
them. What lies too deep is the only thing that is taken unseen, and it is reported in its own way.
-/

namespace ArchDiagram.Syntax

/-- Cursors that show the same to a reader that decides what to do. -/
structure Cursor.SameView (c d : Cursor) : Prop where
  more : c.rest ≠ []
  more' : d.rest ≠ []
  current : c.current = d.current
  lastStop : c.lastStop = d.lastStop
  ahead : c.current.kind ≠ .mark .leftBrace → c.current.kind ≠ .mark .less → c.ahead = d.ahead

/-- Takes an opening mark that lies too deep, with all that stands up to its closing mark. -/
def leaveOut (opening closing : TokenKind) : Reader Unit := do
  report .nestingTooDeep (← advance)
  skipNested opening closing
  discard (expect closing)

/-- Reports a token where an opening mark should be that would lie too deep. -/
def refuse (cause : SyntaxError.Cause) : Reader Unit := do
  let token ← current
  report cause token
  report .nestingTooDeep token

def brackets : List (TokenKind × TokenKind) :=
  [(.mark .leftBrace, .mark .rightBrace), (.mark .less, .mark .greater)]

/-- The readers that are put together from single steps, in which they see no farther than they
should. -/
inductive Shortsighted : {α : Type} → Reader α → Prop
  | pure {α : Type} (a : α) : Shortsighted (pure a)
  | bind {α β : Type} {r : Reader α} {f : α → Reader β} :
      Shortsighted r → (∀ a, Shortsighted (f a)) → Shortsighted (r >>= f)
  | current : Shortsighted current
  | advance : Shortsighted advance
  | report {cause : SyntaxError.Cause} (token : Token) :
      cause ≠ .nestingTooDeep → Shortsighted (report cause token)
  | value {α : Type} (value : Except Fault α) : Shortsighted (liftM value : Reader α)
  | look {α : Type} {f : Cursor → Reader α} : (∀ c d, c.SameView d → f c = f d) →
      (∀ c, Shortsighted (f c)) → Shortsighted (get >>= f)
  | repeatWhile {α : Type} {round : Reader (Option α)} :
      Shortsighted round → Shortsighted (repeatWhile round)
  | manyRound {α : Type} {closing : TokenKind} {region : Region} {item : Reader (Option α)} :
      Shortsighted item → Shortsighted (manyRound closing region item)
  | leaveOut {opening closing : TokenKind} {other : Reader Unit} :
      (opening, closing) ∈ brackets → Shortsighted other →
      Shortsighted (isAt opening >>= fun here =>
        if here then leaveOut opening closing else other)
  | refuse {cause : SyntaxError.Cause} : cause ≠ .nestingTooDeep → Shortsighted (refuse cause)

namespace Shortsighted

variable {α : Type} {r s : Reader α}

theorem discard (short : Shortsighted r) : Shortsighted (discard r) :=
  Shortsighted.bind (f := fun _ => Pure.pure ()) short fun _ => .pure ()

protected theorem ite {p : Prop} [Decidable p] (yes : Shortsighted r) (no : Shortsighted s) :
    Shortsighted (if p then r else s) := by
  by_cases holds : p
  · rwa [if_pos holds]
  · rwa [if_neg holds]

theorem many {closing : TokenKind} {region : Region} {item : Reader (Option α)}
    (short : Shortsighted item) : Shortsighted (many closing region item) :=
  .bind short.manyRound.repeatWhile fun _ => .pure _

end Shortsighted

section Tokens

variable {kind : TokenKind}

theorem shortsighted_isAt : Shortsighted (isAt kind) := .bind .current fun _ => .pure _

theorem shortsighted_accept : Shortsighted (accept kind) :=
  .bind shortsighted_isAt fun _ =>
    .ite (.bind Shortsighted.advance.discard fun _ => .pure _) (.pure _)

theorem shortsighted_expect : Shortsighted (expect kind) :=
  .bind .current fun token => .ite .advance (.bind (.report token (by simp)) fun _ => .pure _)

theorem shortsighted_expectText : Shortsighted (expectText kind) :=
  .bind shortsighted_expect fun _ => .pure _

theorem shortsighted_expectName : Shortsighted expectName :=
  .bind .current fun token => .ite (.bind Shortsighted.advance.discard fun _ => .pure _)
    (.bind (.report token (by simp)) fun _ => .pure _)

theorem shortsighted_skipUnexpected (region : Region) : Shortsighted (skipUnexpected region) :=
  .bind .current fun token => .bind (.report token (by simp)) fun _ => Shortsighted.advance.discard

/-- A span needs the end of the last token only. -/
theorem shortsighted_spanFrom (first : Token) : Shortsighted (spanFrom first) :=
  .look (fun _ _ view => by rw [view.lastStop]) fun _ => .pure _

end Tokens

namespace Shortsighted

variable {α : Type}

theorem spanned (first : Token) (f : Span → α) :
    Shortsighted (spanFrom first >>= fun span => Pure.pure (f span)) :=
  .bind (shortsighted_spanFrom first) fun _ => .pure _

theorem listed {item : Reader α} (short : Shortsighted item) :
    Shortsighted (separatedByCommas item) := by
  have round : Shortsighted (commaRound item) :=
    .bind shortsighted_accept fun _ => .ite (.bind short fun _ => .pure _) (.pure _)
  exact .bind short fun _ => .bind round.repeatWhile fun _ => .pure _

end Shortsighted

theorem shortsighted_importDecl : Shortsighted importDecl :=
  .bind shortsighted_expect fun first => .bind shortsighted_expectText fun _ =>
    .bind shortsighted_accept.discard fun _ => .spanned first _

theorem shortsighted_modifiers : Shortsighted modifiers := by
  refine .repeatWhile (.bind .current fun token => ?_)
  split
  · exact .bind Shortsighted.advance.discard fun _ => .pure _
  · exact .pure _

theorem typeBase_none : typeBase none = current >>= fun first =>
    if isTypeName first.kind then discard advance >>= fun _ =>
      (isAt (.mark .less) >>= fun here =>
        if here then leaveOut (.mark .less) (.mark .greater) else pure ()) >>= fun _ =>
      spanFrom first >>= fun span => pure (.simple first.text span)
    else report (.expectedType first.toLexeme) first >>= fun _ =>
      spanFrom first >>= fun span => pure (.simple "any" span) := by
  rw [typeBase]
  simp only [leaveOut, bind_assoc]
  congr! with first name _ here
  split
  · simp only [bind_assoc]
  · rw [pure_bind]

theorem shortsighted_typeWith {arguments? : Option (Reader (List TypeExpr))}
    (short : ∀ arguments ∈ arguments?, Shortsighted arguments) :
    Shortsighted (typeWith arguments?) := by
  have base : Shortsighted (typeBase arguments?) := by
    cases arguments? with
    | none =>
      rw [typeBase_none]
      refine .bind .current fun first => .ite (.bind Shortsighted.advance.discard fun _ => ?_)
        (.bind (.report first (by simp)) fun _ => .spanned first _)
      exact .bind (.leaveOut (by simp [brackets]) (.pure ())) fun _ => .spanned first _
    | some arguments =>
      refine .bind .current fun first => .ite (.bind Shortsighted.advance.discard fun _ => ?_)
        (.bind (.report first (by simp)) fun _ => .spanned first _)
      exact .bind shortsighted_isAt fun _ => .ite (.bind (short arguments rfl) fun _ =>
        .spanned first _) (.spanned first _)
  exact .bind .current fun first => .bind base fun _ => .bind shortsighted_accept fun _ =>
    .ite (.spanned first _) (.pure _)

theorem shortsighted_typeExpr (budget : Nat) : Shortsighted (typeExpr budget) := by
  induction budget with
  | zero => exact shortsighted_typeWith (by simp)
  | succ budget ih =>
    refine shortsighted_typeWith fun arguments some_ => ?_
    obtain rfl := Option.some.inj some_
    exact .bind shortsighted_expect.discard fun _ => .bind ih.listed fun _ =>
      .bind shortsighted_expect.discard fun _ => .pure _

theorem shortsighted_literal : Shortsighted literal := by
  refine .bind .current fun token => ?_
  split
  · exact .bind Shortsighted.advance.discard fun _ => .bind (.value _) fun _ => .spanned token _
  · exact .bind (.report token (by simp)) fun _ => .spanned token _

theorem shortsighted_visibility : Shortsighted visibility := by
  refine .bind .current fun token => ?_
  split
  · exact .bind Shortsighted.advance.discard fun _ => .pure _
  · exact .pure _

theorem shortsighted_param (budget : Nat) : Shortsighted (param budget) :=
  .bind .current fun first => .bind shortsighted_expectName fun _ =>
    .bind shortsighted_expect.discard fun _ => .bind (shortsighted_typeExpr budget) fun _ =>
      .spanned first _

theorem shortsighted_params (budget : Nat) : Shortsighted (params budget) :=
  .bind shortsighted_isAt fun _ => .ite (.pure _) (shortsighted_param budget).listed

section Rest

variable (budget : Nat) (first : Token) (mark : VisibilityMark) (mods : List Modifier)
  (name : String)

theorem shortsighted_fieldRest : Shortsighted (fieldRest budget first mark mods name) := by
  have value : Shortsighted defaultValue :=
    .bind shortsighted_accept fun _ => .ite (.bind shortsighted_literal fun _ => .pure _) (.pure _)
  exact .bind shortsighted_expect.discard fun _ => .bind (shortsighted_typeExpr budget) fun _ =>
    .bind value fun _ => .bind shortsighted_accept.discard fun _ => .spanned first _

theorem shortsighted_methodRest : Shortsighted (methodRest budget first mark mods name) :=
  .bind shortsighted_expect.discard fun _ => .bind (shortsighted_params budget) fun _ =>
    .bind shortsighted_expect.discard fun _ => .bind shortsighted_expect.discard fun _ =>
      .bind (shortsighted_typeExpr budget) fun _ => .bind shortsighted_accept.discard fun _ =>
        .spanned first _

end Rest

theorem shortsighted_fieldOrMethod (budget : Nat) (kind : EntityKind) :
    Shortsighted (fieldOrMethod budget kind) := by
  refine .bind .current fun first => .ite ?_
    (.bind (shortsighted_skipUnexpected _) fun _ => .pure _)
  refine .bind shortsighted_visibility fun mark => .bind shortsighted_modifiers fun mods => ?_
  refine .bind shortsighted_expectName fun name => .ite (.pure _) ?_
  exact .bind shortsighted_isAt fun _ => .ite
    (.bind (shortsighted_methodRest budget first mark mods name) fun _ => .pure _)
    (.bind (shortsighted_fieldRest budget first mark mods name) fun _ => .pure _)

theorem Cursor.SameView.isAtValue_eq {c d : Cursor} (view : c.SameView d) :
    isAtValue c = isAtValue d := by
  rw [isAtValue, isAtValue, view.current]
  by_cases name : d.current.kind.isName = true
  · have opens (mark : Mark) : c.current.kind ≠ .mark mark := by
      rw [view.current]
      intro same
      simp [same, TokenKind.isName] at name
    rw [view.ahead (opens _) (opens _)]
  · simp [name]

theorem shortsighted_member (budget : Nat) (kind : EntityKind) :
    Shortsighted (member budget kind) := by
  have value : Shortsighted valueDecl := .bind .advance fun token => .spanned token _
  have enumeration : Shortsighted (enumerationMember budget) := by
    refine .bind shortsighted_accept fun _ => .ite (.pure _) (.look ?_ fun _ => .ite
      (.bind value fun _ => .pure _) (shortsighted_fieldOrMethod budget _))
    intro c d view
    rw [view.isAtValue_eq]
  exact .bind shortsighted_accept fun _ => .ite (.pure _)
    (.ite enumeration (shortsighted_fieldOrMethod budget kind))

theorem shortsighted_entityKind : Shortsighted entityKind := by
  refine .bind .current fun token => ?_
  split
  · exact .bind Shortsighted.advance.discard fun _ => .pure _
  · exact .bind (.report token (by simp)) fun _ => .pure _

theorem shortsighted_stereotypeClose : Shortsighted stereotypeClose := by
  refine .look (fun c d view => ?_) fun c => .ite
    (.bind Shortsighted.advance.discard fun _ => Shortsighted.advance.discard)
    (.bind (.report _ (by simp)) fun _ => shortsighted_accept.discard)
  have same := view.current
  -- Only behind a closing mark the next token counts.
  by_cases closes : c.current.kind = .mark .greater
  · rw [view.ahead (by simp [closes]) (by simp [closes]), same]
  · rw [if_neg fun both => closes both.1, if_neg fun both => closes (same ▸ both.1), same]

theorem shortsighted_stereotype : Shortsighted stereotype :=
  .bind shortsighted_accept fun _ => .ite (.bind shortsighted_expectText fun _ =>
    .bind shortsighted_stereotypeClose fun _ => .pure _) (.pure _)

theorem shortsighted_namesBehind (word : Keyword) : Shortsighted (namesBehind word) := by
  have names : Shortsighted (separatedByCommas expectIdentifier) := shortsighted_expectText.listed
  exact .bind shortsighted_accept fun _ => .ite (.bind names fun _ => .pure _) (.pure _)

theorem shortsighted_members (budget : Nat) (kind : EntityKind) :
    Shortsighted (members budget kind) :=
  .bind shortsighted_accept fun _ => .ite (.bind (shortsighted_member budget kind).many fun _ =>
    .bind shortsighted_expect.discard fun _ => .pure _) (.pure _)

theorem shortsighted_entity (budget : Nat) : Shortsighted (entity budget) :=
  .bind .current fun first => .bind shortsighted_modifiers fun _ =>
    .bind shortsighted_entityKind fun kind => .bind shortsighted_expectText fun _ =>
      .bind shortsighted_stereotype fun _ => .bind (shortsighted_namesBehind _) fun _ =>
        .bind (shortsighted_namesBehind _) fun _ => .bind (shortsighted_members budget kind)
          fun _ => .spanned first _

theorem shortsighted_attributeValue : Shortsighted attributeValue :=
  .bind shortsighted_isAt fun _ => .ite (.bind .advance fun _ => .pure _) shortsighted_expectText

theorem shortsighted_setting {value : Reader String} (short : Shortsighted value)
    (separators : List TokenKind) : Shortsighted (setting value separators) :=
  .bind shortsighted_expectName fun _ => .bind shortsighted_expect.discard fun _ =>
    .bind short fun _ => .bind .current fun _ =>
      .ite (.bind Shortsighted.advance.discard fun _ => .pure _) (.pure _)

theorem shortsighted_relation : Shortsighted relation := by
  have writes : Shortsighted attributes := .bind shortsighted_accept fun _ =>
    .ite (.bind (shortsighted_setting shortsighted_attributeValue _).many fun _ =>
      .bind shortsighted_expect.discard fun _ => .pure _) (.pure _)
  exact .bind shortsighted_expect fun first => .bind .advance fun _ => .bind (.value _) fun _ =>
    .bind shortsighted_expectText fun _ => .bind writes fun _ => .spanned first _

theorem shortsighted_note : Shortsighted note := by
  have target : Shortsighted noteTarget := .bind shortsighted_accept fun _ =>
    .ite (.bind shortsighted_expectText fun _ => .pure _) (.pure _)
  exact .bind shortsighted_expect fun first => .bind shortsighted_expectText fun _ =>
    .bind target fun _ => .spanned first _

theorem shortsighted_style : Shortsighted style := by
  have value : Shortsighted styleValue := .bind shortsighted_isAt fun _ =>
    .ite (.bind .advance fun _ => .pure _) shortsighted_attributeValue
  exact .bind shortsighted_expect fun first => .bind shortsighted_expectText fun _ =>
    .bind shortsighted_expect.discard fun _ => .bind (shortsighted_setting value _).many fun _ =>
      .bind shortsighted_expect.discard fun _ => .spanned first _

theorem shortsighted_layout : Shortsighted layout := by
  have place : Shortsighted coordinate :=
    .bind shortsighted_expect fun _ => .ite (.value _) (.pure _)
  exact .bind shortsighted_expect fun first => .bind shortsighted_expectText fun _ =>
    .bind shortsighted_expect.discard fun _ => .bind shortsighted_expect.discard fun _ =>
      .bind place fun _ => .bind shortsighted_expect.discard fun _ => .bind place fun _ =>
        .bind shortsighted_expect.discard fun _ => .spanned first _

theorem packageWith_none : packageWith none = expect (.keyword .package) >>= fun first =>
    expectIdentifier >>= fun name => (isAt (.mark .leftBrace) >>= fun here =>
      if here then leaveOut (.mark .leftBrace) (.mark .rightBrace)
      else current >>= fun token =>
        refuse (.expected (.mark .leftBrace) token.toLexeme) >>= fun _ =>
          discard (expect (.mark .rightBrace))) >>= fun _ =>
    spanFrom first >>= fun span => pure (.package name [] span) := by
  rw [packageWith]
  congr! 4 with first name
  funext c
  change StateT.run _ c = StateT.run _ c
  by_cases here : c.current.kind = .mark .leftBrace
  · rw [run_bind_of_ok (run_expect_of_eq here)]
    simp only [bind_assoc, pure_bind, here, if_true]
    rw [run_bind_of_ok (run_isAt c _), if_pos (decide_eq_true here)]
    rfl
  · rw [run_bind_of_ok (run_expect_of_ne here)]
    simp only [bind_assoc, pure_bind, here, if_false]
    rw [run_bind_of_ok (run_isAt c _), if_neg (by simpa using here)]
    rfl

theorem shortsighted_packageWith {body? : Option (Reader (List Item))}
    (short : ∀ body ∈ body?, Shortsighted body) : Shortsighted (packageWith body?) := by
  cases body? with
  | none =>
    rw [packageWith_none]
    refine .bind shortsighted_expect fun first => .bind shortsighted_expectText fun _ => ?_
    have other : Shortsighted (current >>= fun token =>
        refuse (.expected (.mark .leftBrace) token.toLexeme) >>= fun _ =>
          discard (expect (.mark .rightBrace))) :=
      .bind .current fun _ => .bind (.refuse (by simp)) fun _ => shortsighted_expect.discard
    exact .bind (.leaveOut (by simp [brackets]) other) fun _ => .spanned first _
  | some body =>
    exact .bind shortsighted_expect fun first => .bind shortsighted_expectText fun _ =>
      .bind shortsighted_expect fun _ => .bind (short body rfl) fun _ =>
        .bind shortsighted_expect.discard fun _ => .spanned first _

theorem shortsighted_declaration (budget : Nat) (region : Region) :
    Shortsighted (declaration budget region) := by
  have stray : Shortsighted (skipUnexpected region >>= fun _ =>
      pure (none : Option Declaration)) :=
    .bind (shortsighted_skipUnexpected region) fun _ => .pure _
  refine .look (fun c d view => ?_) fun c => ?_
  · -- Only behind a name the next token counts.
    rw [view.current]
    split <;> try rfl
    next name =>
      have opens (mark : Mark) : c.current.kind ≠ .mark mark := by simp [view.current, name]
      rw [view.ahead (opens _) (opens _)]
  · split
    · exact .bind shortsighted_layout fun _ => .pure _
    · exact .bind shortsighted_note fun _ => .pure _
    · exact .bind shortsighted_style fun _ => .pure _
    · exact .bind (shortsighted_entity budget) fun _ => .pure _
    · exact .bind (shortsighted_entity budget) fun _ => .pure _
    · exact .ite (.bind shortsighted_relation fun _ => .pure _) stray
    · exact stray

theorem shortsighted_itemAt {budget : Nat} (region : Region)
    (short : ∀ body ∈ bodyAt? budget, Shortsighted body) : Shortsighted (itemAt budget region) :=
  .bind shortsighted_isAt fun _ => .ite (.bind (shortsighted_packageWith short) fun _ => .pure _)
    (.bind (shortsighted_declaration budget region) fun _ => .pure _)

theorem shortsighted_items (budget : Nat) (region : Region) :
    Shortsighted (items budget region) := by
  induction budget generalizing region with
  | zero =>
    rw [items_eq]
    exact (shortsighted_itemAt region (by simp [bodyAt?])).many
  | succ budget ih =>
    rw [items_eq]
    refine (shortsighted_itemAt region fun body some_ => ?_).many
    obtain rfl := Option.some.inj some_
    exact ih .packageBody

theorem shortsighted_diagramDecl : Shortsighted diagramDecl := by
  have kind : Shortsighted diagramKind := by
    refine .bind .current fun token => ?_
    dsimp only
    generalize (if token.kind = .string then none else DiagramKind.ofWord? token.text) = found
    cases found with
    | some kind => exact .bind Shortsighted.advance.discard fun _ => .pure _
    | none =>
      exact .bind (.report token (by simp)) fun _ => .ite
        (.bind Shortsighted.advance.discard fun _ => .pure _) (.pure _)
  exact .bind shortsighted_expect fun first => .bind shortsighted_expectText fun _ =>
    .bind shortsighted_expect.discard fun _ => .bind kind fun _ =>
      .bind shortsighted_expect.discard fun _ => .bind (shortsighted_items _ _) fun _ =>
        .bind shortsighted_expect.discard fun _ => .spanned first _

theorem shortsighted_program : Shortsighted program := by
  have part : Shortsighted topLevel := by
    refine .look (fun c d view => ?_) fun c => .ite (.pure _) ?_
    · rw [view.current, List.isEmpty_eq_false_iff.2 view.more,
        List.isEmpty_eq_false_iff.2 view.more']
    · split
      · exact .bind shortsighted_importDecl fun _ => .pure _
      · exact .bind shortsighted_diagramDecl fun _ => .pure _
      · exact .bind (.report _ (by simp)) fun _ =>
          .bind Shortsighted.advance.discard fun _ => .pure _
  exact .bind .current fun _ => .bind part.repeatWhile fun _ => .bind .current fun _ => .pure _

namespace Cursor

theorem advance_report (c : Cursor) (cause : SyntaxError.Cause) (token : Token) :
    (c.report cause token).advance = c.advance.report cause token := by
  obtain ⟨rest, final, behind, lastStop, errors, kind_final⟩ := c
  cases rest <;> rfl

end Cursor

section Keeps

variable {α β : Type} {p : Cursor → Prop} {r : Reader α}

def Keeps (p : Cursor → Prop) (r : Reader α) : Prop :=
  ∀ ⦃c d : Cursor⦄ ⦃a : α⦄, r.run c = .ok (a, d) → p c → p d

namespace Keeps

protected theorem bind {f : α → Reader β} (first : Keeps p r) (next : ∀ a, Keeps p (f a)) :
    Keeps p (r >>= f) := by
  intro c d b run holds
  obtain ⟨a, m, found, rest⟩ := run_of_bind run
  exact next a rest (first found holds)

protected theorem pure (a : α) : Keeps p (pure a : Reader α) := by
  intro c d b run holds
  obtain ⟨-, rfl⟩ := Prod.mk.inj (Except.ok.inj run)
  exact holds

theorem look {f : Cursor → Reader α} (next : ∀ c, Keeps p (f c)) : Keeps p (get >>= f) :=
  fun c _ _ run holds => next c run holds

theorem current : Keeps p current := look fun c => .pure c.current

protected theorem ite {s : Reader α} {q : Prop} [Decidable q] (yes : Keeps p r)
    (no : Keeps p s) : Keeps p (if q then r else s) := by
  by_cases holds : q
  · rwa [if_pos holds]
  · rwa [if_neg holds]

theorem modify {f : Cursor → Cursor} (step : ∀ c, p c → p (f c)) :
    Keeps p (modify f : Reader Unit) := by
  intro c d _ run holds
  obtain ⟨-, rfl⟩ := Prod.mk.inj (Except.ok.inj run)
  exact step c holds

theorem repeatWhile {round : Reader (Option α)} (rounds : Keeps p round) :
    Keeps p (repeatWhile round) := by
  intro c d as run holds
  have loop := rounds_of_repeatWhile run
  clear run
  induction loop with
  | stop last => exact rounds last holds
  | stuck last => exact rounds last holds
  | next first _ ih => exact ih (rounds first holds)

end Keeps

/-- What a single step does not undo. -/
structure Lasting (p : Cursor → Prop) : Prop where
  taken {c : Cursor} : p c → p c.advance
  reported {c : Cursor} {cause : SyntaxError.Cause} (token : Token) : cause ≠ .nestingTooDeep →
    p c → p (c.report cause token)
  tooDeep {c : Cursor} : p c → p (c.report .nestingTooDeep c.current)

namespace Lasting

variable (lasting : Lasting p)

include lasting

theorem keeps_advance : Keeps p advance :=
  fun _ _ _ run holds => (Prod.mk.inj (Except.ok.inj run)).2 ▸ lasting.taken holds

theorem keeps_report {cause : SyntaxError.Cause} (token : Token) (other : cause ≠ .nestingTooDeep) :
    Keeps p (report cause token) := .modify fun _ => lasting.reported token other

theorem keeps_expect (kind : TokenKind) : Keeps p (expect kind) :=
  .bind .current fun token => .ite lasting.keeps_advance
    (.bind (lasting.keeps_report token (by simp)) fun _ => .pure token)

theorem keeps_skipUnexpected (region : Region) : Keeps p (skipUnexpected region) :=
  .bind .current fun token => .bind (lasting.keeps_report token (by simp)) fun _ =>
    .bind lasting.keeps_advance fun _ => .pure ()

theorem keeps_leaveOut (opening closing : TokenKind) : Keeps p (leaveOut opening closing) := by
  have opens : Keeps p (advance >>= fun token => report .nestingTooDeep token) := by
    intro c d _ run holds
    obtain ⟨-, rfl⟩ := Prod.mk.inj (Except.ok.inj run)
    have reported := lasting.taken (lasting.tooDeep holds)
    rwa [Cursor.advance_report] at reported
  have skips : Keeps p (skipNested opening closing) := by
    refine .modify fun c holds => ?_
    induction nestedLength opening closing 0 c.rest with
    | zero => exact holds
    | succ n ih => exact lasting.taken ih
  rw [leaveOut, ← bind_assoc]
  exact .bind opens fun _ => .bind skips fun _ => .bind (lasting.keeps_expect closing) fun _ =>
    .pure ()

theorem keeps_refuse {cause : SyntaxError.Cause} (other : cause ≠ .nestingTooDeep) :
    Keeps p (refuse cause) := by
  intro c d _ run holds
  obtain ⟨-, rfl⟩ := Prod.mk.inj (Except.ok.inj run)
  exact lasting.tooDeep (lasting.reported c.current other holds)

end Lasting

theorem Shortsighted.keeps (short : Shortsighted r) (lasting : Lasting p) : Keeps p r := by
  -- Induction over how the reader is put together, one case for each kind of step.
  induction short with
  | pure a => exact .pure a
  | bind _ _ first next => exact .bind first next
  | current => exact .current
  | advance => exact lasting.keeps_advance
  | report token other => exact lasting.keeps_report token other
  | value value =>
    intro c d a run holds
    cases value with
    | error fault => cases run
    | ok a =>
      obtain ⟨-, rfl⟩ := Prod.mk.inj (Except.ok.inj run)
      exact holds
  | look _ _ ih => exact .look ih
  | repeatWhile _ ih => exact .repeatWhile ih
  | manyRound _ ih =>
    exact .look fun c => .ite (.pure none) (.bind ih fun found => .look fun now =>
      .ite (.bind (lasting.keeps_skipUnexpected _) fun _ => .pure _) (.pure _))
  | leaveOut _ _ ih =>
    exact .bind (.bind .current fun _ => .pure _) fun _ => .ite (lasting.keeps_leaveOut _ _) ih
  | refuse other => exact lasting.keeps_refuse other

end Keeps

end ArchDiagram.Syntax
