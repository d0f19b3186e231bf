import ArchDiagram.Yaml.Token

/-!
A place in the text of a document: the characters behind it, and how far it is from the beginning
of the text and of its line.
-/

namespace ArchDiagram.Yaml

structure Spot where
  rest : List Char
  index : Nat
  line : Nat
  column : Nat
deriving Repr

namespace Spot

def peek (spot : Spot) : Option Char := spot.rest.head?

def peekNext (spot : Spot) : Option Char := spot.rest.tail.head?

/-- The place behind one more character. A carriage return before a line feed ends no line of its
own, and a byte order mark takes no column. -/
def next (spot : Spot) : Spot :=
  match spot.rest with
  | [] => spot
  | c :: rest =>
    if isBreak c && !(c = '\r' && rest.head? = some '\n') then
      ⟨rest, spot.index + 1, spot.line + 1, 0⟩
    else
      ⟨rest, spot.index + 1, spot.line, if c = '\ufeff' then spot.column else spot.column + 1⟩

def forward (spot : Spot) (count : Nat) : Spot := count.repeat next spot

def takeWhile (spot : Spot) (p : Char → Bool) : List Char × Spot :=
  let found := spot.rest.takeWhile p
  (found, spot.forward found.length)

def skipWhile (spot : Spot) (p : Char → Bool) : Spot := (spot.takeWhile p).2

def isAt (spot : Spot) (p : Char → Bool) : Bool := spot.peek.any p

def isAtOrEnd (spot : Spot) (p : Char → Bool) : Bool := spot.peek.all p

def isBeforeOrEnd (spot : Spot) (p : Char → Bool) : Bool := spot.peekNext.all p

/-- The end of a line at the place, in the form in which it counts, and the place behind it. -/
def lineBreak (spot : Spot) : List Char × Spot :=
  match spot.rest with
  | '\r' :: '\n' :: _ => (['\n'], spot.forward 2)
  | c :: _ =>
    if c = '\u2028' || c = '\u2029' then ([c], spot.next)
    else if isBreak c then (['\n'], spot.next)
    else ([], spot)
  | [] => ([], spot)

def isAtMark (spot : Spot) (c : Char) : Bool :=
  match spot.rest with
  | a :: b :: d :: rest => a = c && b = c && d = c && rest.head?.all isBlankOrBreak
  | _ => false

def isAtEdge (spot : Spot) : Bool := spot.isAtMark '-' || spot.isAtMark '.'

def skipComment (spot : Spot) : Spot :=
  if spot.peek = some '#' then spot.skipWhile (!isBreak ·) else spot

def skipLineRest? (spot : Spot) : Except Fault Spot :=
  let spot := (spot.skipWhile (· = ' ')).skipComment
  if spot.isAtOrEnd isBreak then .ok spot.lineBreak.2 else .error .malformed

end Spot

end ArchDiagram.Yaml
