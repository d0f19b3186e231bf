import ArchDiagram.Proofs.MaximalMunch
import ArchDiagram.Proofs.Simulation.Readers

/-!
Places moved by some characters and lines. Pieces that are placed elsewhere give the same tokens and
errors, moved. Runs over tokens and over the same tokens moved are a simulation in which spans are
moved likewise.
-/

namespace ArchDiagram

/-- How far places are moved. Columns stay. -/
structure Shift where
  characters : Nat
  lines : Nat

namespace Shift

def behind (text : String) : Shift := ⟨text.length + 1, text.toList.count '\n' + 1⟩

variable (shift : Shift)

def position (position : Position) : Position :=
  ⟨position.offset + shift.characters, position.line + shift.lines, position.column⟩

def span (span : Span) : Span := ⟨shift.position span.start, span.stop + shift.characters⟩

def token (token : Token) : Token :=
  ⟨token.toLexeme, shift.position token.position, token.stop + shift.characters⟩

def error (error : SyntaxError) : SyntaxError := ⟨error.cause, shift.position error.position⟩

def placed (placed : Position × Lexer.Piece) : Position × Lexer.Piece :=
  (shift.position placed.1, placed.2)

@[simp] theorem kind_token (token : Token) : (shift.token token).kind = token.kind := rfl

theorem position_after (position : Position) (text : List Char) :
    shift.position (position.after text) = (shift.position position).after text := by
  have next (position : Position) (c : Char) :
      shift.position (position.next c) = (shift.position position).next c := by
    unfold Position.next
    split <;> simp [Shift.position, Nat.add_right_comm]
  induction text generalizing position with
  | nil => rfl
  | cons c text ih =>
    change shift.position ((position.next c).after text) = _
    rw [ih, next]
    rfl

theorem position_behind (text : String) :
    (Position.start.after text.toList).next '\n' = (behind text).position .start := by
  rw [Position.next, if_pos rfl, Lexer.offset_after_start, Position.line_after,
    String.length_toList, Shift.position, behind]
  simp [Position.start, Nat.add_assoc]

theorem place_position (position : Position) (found : List Lexer.Piece) :
    Lexer.place (shift.position position) found =
      (Lexer.place position found).map shift.placed := by
  induction found generalizing position with
  | nil => rfl
  | cons piece found ih =>
    rw [Lexer.place, Lexer.place, ← position_after, ih]
    rfl

theorem tokenAt?_placed (placed : Position × Lexer.Piece) :
    Lexer.tokenAt? (shift.placed placed) = (Lexer.tokenAt? placed).map shift.token := by
  rw [Lexer.tokenAt?, Lexer.tokenAt?, Option.map_map, Shift.placed, ← position_after]
  rfl

theorem errorAt?_placed (placed : Position × Lexer.Piece) :
    Lexer.errorAt? (shift.placed placed) = (Lexer.errorAt? placed).map shift.error := by
  rw [Lexer.errorAt?, Lexer.errorAt?, Option.map_map]
  rfl

end Shift

namespace Syntax

/-- A cursor, and one over the same tokens moved, at which the same was reported. As long as no
token was taken, what counts as the end of the last one need not be moved with them. -/
structure Cursor.Moved (shift : Shift) (c d : Cursor) : Prop where
  rest : d.rest = c.rest.map shift.token
  final : d.final = shift.token c.final
  errors : d.errors = c.errors.map shift.error
  lastStop : d.lastStop = c.lastStop + shift.characters ∨
    c.lastStop = 0 ∧ d.lastStop ≤ shift.characters

namespace Cursor.Moved

variable {shift : Shift} {c d : Cursor} (moved : c.Moved shift d)

include moved

theorem current : d.current = shift.token c.current := by
  rw [Cursor.current, Cursor.current, moved.rest, moved.final]
  cases c.rest <;> rfl

theorem advance : c.advance.Moved shift d.advance := by
  cases left : c.rest with
  | nil =>
    have right : d.rest = [] := by rw [moved.rest, left, List.map_nil]
    simpa only [Cursor.advance, left, right] using moved
  | cons token rest =>
    have right : d.rest = shift.token token :: rest.map shift.token := by
      rw [moved.rest, left, List.map_cons]
    simp only [Cursor.advance, left, right]
    exact ⟨rfl, moved.final, moved.errors, .inl rfl⟩

theorem following : d.following = shift.token c.following := by
  rw [Cursor.following_eq, Cursor.following_eq, moved.advance.current]

theorem report (cause : SyntaxError.Cause) (token : Token) :
    (c.report cause token).Moved shift (d.report cause (shift.token token)) where
  rest := moved.rest
  final := moved.final
  errors := congrArg (shift.error ⟨cause, token.position⟩ :: ·) moved.errors
  lastStop := moved.lastStop

theorem span (token : Token) :
    shift.span ⟨token.position, max c.lastStop token.position.offset⟩ =
      ⟨(shift.token token).position, max d.lastStop (shift.token token).position.offset⟩ := by
  -- A span is moved, since it does not start before the token that it is told from.
  have stop : max c.lastStop token.position.offset + shift.characters =
      max d.lastStop (token.position.offset + shift.characters) := by
    rcases moved.lastStop with same | ⟨none_, low⟩ <;> omega
  exact congrArg (Span.mk _) stop

theorem touching : (c.current.kind = .mark .greater ∧ c.following.kind = .mark .greater ∧
      c.following.position.offset = c.current.stop) ↔
    (d.current.kind = .mark .greater ∧ d.following.kind = .mark .greater ∧
      d.following.position.offset = d.current.stop) := by
  rw [moved.current, moved.following]
  exact and_congr_right fun _ => and_congr_right fun _ => (Nat.add_right_cancel_iff).symm

end Cursor.Moved

def movedBy (shift : Shift) : Simulation where
  tokens token other := other = shift.token token
  cursors := Cursor.Moved shift
  left := shift.span
  right := id
  lexeme same := same ▸ rfl
  current := Cursor.Moved.current
  following := Cursor.Moved.following
  rest moved := by
    rw [moved.rest, List.map_map]
    rfl
  advance := Cursor.Moved.advance
  report cause moved same := same ▸ moved.report cause _
  span moved same := same ▸ moved.span _
  touching := Cursor.Moved.touching

end Syntax

end ArchDiagram
