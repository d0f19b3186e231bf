import ArchDiagram.Yaml.Token.Spot

/-!
The four ways to write a scalar: plain, in quotes of two kinds, and as a block. Line breaks inside
a scalar are folded: a single one becomes a blank, and of several the first one is dropped. Loops
are given the number of characters that are left, one more than which no loop needs.
-/

namespace ArchDiagram.Yaml

/-- The text of a line break together with the empty lines behind it. -/
def folded (lineBreak breaks : List Char) : List Char :=
  if lineBreak ≠ ['\n'] then lineBreak ++ breaks
  else if breaks.isEmpty then [' ']
  else breaks

def quotedBreaks : (steps : Nat) → Spot → Except Fault (List Char × Spot)
  | 0, _ => .error .malformed
  | steps + 1, spot => do
    if spot.isAtEdge then
      throw .malformed
    let spot := spot.skipWhile fun c => c = ' ' || c = '\t'
    if spot.isAt isBreak then
      let (more, behind) ← quotedBreaks steps spot.lineBreak.2
      return (spot.lineBreak.1 ++ more, behind)
    else
      return ([], spot)

/-- Blanks inside quotes. Around the end of a line they count for nothing. -/
def quotedSpaces (spot : Spot) : Except Fault (List Char × Spot) := do
  let (blanks, spot) := spot.takeWhile fun c => c = ' ' || c = '\t'
  match spot.peek with
  | none => throw .malformed
  | some c =>
    if isBreak c then
      let (breaks, behind) ← quotedBreaks (spot.rest.length + 1) spot.lineBreak.2
      return (folded spot.lineBreak.1 breaks, behind)
    else
      return (blanks, spot)

def escape? (c : Char) : Option Char :=
  match c with
  | '0' => some '\x00'
  | 'a' => some '\x07'
  | 'b' => some '\x08'
  | 't' | '\t' => some '\t'
  | 'n' => some '\n'
  | 'v' => some '\x0b'
  | 'f' => some '\x0c'
  | 'r' => some '\r'
  | 'e' => some '\x1b'
  | ' ' => some ' '
  | '"' => some '"'
  | '\\' => some '\\'
  | '/' => some '/'
  | 'N' => some '\x85'
  | '_' => some '\xa0'
  | 'L' => some '\u2028'
  | 'P' => some '\u2029'
  | _ => none

def escapeDigits? (c : Char) : Option Nat :=
  match c with
  | 'x' => some 2
  | 'u' => some 4
  | 'U' => some 8
  | _ => none

def hexNumber? (count : Nat) (cs : List Char) : Option Nat :=
  let digits := cs.take count
  if digits.length < count then none
  else digits.foldlM (fun value c => (hexDigit? c).map (16 * value + ·)) 0

def codeOf (code : Nat) : Except Fault Nat :=
  if code < 0x110000 then .ok code else .error (.characterCode code)

/-- What an escape stands for; the place is behind its backslash. -/
def quotedEscape (spot : Spot) : Except Fault (Text.CodePoints × Spot) := do
  match spot.peek with
  | none => throw .malformed
  | some c =>
    match escape? c, escapeDigits? c with
    | some meant, _ => return ([meant.toNat], spot.next)
    | none, some count =>
      match hexNumber? count spot.next.rest with
      | none => throw .malformed
      | some code => return ([← codeOf code], spot.next.forward count)
    | none, none =>
      if isBreak c then
        let (breaks, behind) ← quotedBreaks (spot.rest.length + 1) spot.lineBreak.2
        return (Text.codePoints breaks, behind)
      else
        throw .malformed

def quotedRest (quote : Char) : (steps : Nat) → Spot → Except Fault (Text.CodePoints × Spot)
  | 0, _ => .error .malformed
  | steps + 1, spot =>
    let goOn (text : Text.CodePoints) (spot : Spot) : Except Fault (Text.CodePoints × Spot) :=
      (quotedRest quote steps spot).map fun (more, behind) => (text ++ more, behind)
    match spot.peek with
    | none => .error .malformed
    | some c =>
      if c = quote then
        if quote = '\'' ∧ spot.peekNext = some '\'' then goOn ['\''.toNat] (spot.forward 2)
        else .ok ([], spot.next)
      else if isBlankOrBreak c then do
        let (text, spot) ← quotedSpaces spot
        goOn (Text.codePoints text) spot
      else if c = '\\' ∧ quote = '"' then do
        let (text, spot) ← quotedEscape spot.next
        goOn text spot
      else goOn [c.toNat] spot.next

/-- A scalar in quotes. The place is at the opening one. -/
def quotedScalar (spot : Spot) : Except Fault (Text.CodePoints × Spot) :=
  quotedRest (spot.peek.getD '"') (spot.rest.length + 1) spot.next

def endsPlain (inFlow : Bool) (c : Char) (rest : List Char) : Bool :=
  isBlankOrBreak c
    || (c = ':' && rest.head?.all fun d =>
      isBlankOrBreak d || (inFlow && ",[]\x7b\x7d".toList.contains d))
    || (inFlow && ",?[]\x7b\x7d".toList.contains c)

def plainLength (inFlow : Bool) : List Char → Nat
  | [] => 0
  | c :: rest => if endsPlain inFlow c rest then 0 else plainLength inFlow rest + 1

/-- The breaks of empty lines in a plain scalar, or nothing at the edge of a document. -/
def plainBreaks : (steps : Nat) → Spot → Option (List Char) × Spot
  | 0, spot => (some [], spot)
  | steps + 1, spot =>
    if spot.isAt (· = ' ') then plainBreaks steps spot.next
    else if spot.isAt isBreak then
      let behind := spot.lineBreak.2
      if behind.isAtEdge then (none, behind)
      else
        let more := plainBreaks steps behind
        (more.1.map (spot.lineBreak.1 ++ ·), more.2)
    else (some [], spot)

def plainSpaces (spot : Spot) : List Char × Spot × Bool :=
  let (blanks, spot) := spot.takeWhile (· = ' ')
  if spot.isAt isBreak then
    let behind := spot.lineBreak.2
    if behind.isAtEdge then ([], behind, true)
    else
      match plainBreaks (behind.rest.length + 1) behind with
      | (none, last) => ([], last, true)
      | (some breaks, last) => (folded spot.lineBreak.1 breaks, last, true)
  else (blanks, spot, false)

/-- The text of a plain scalar behind the given blanks, the place behind it and whether its last
blanks ended a line. -/
def plainRest (inFlow : Bool) (indent : Int) :
    (steps : Nat) → (blanks : List Char) → (lineEnded : Bool) → Spot → List Char × Spot × Bool
  | 0, _, lineEnded, spot => ([], spot, lineEnded)
  | steps + 1, blanks, lineEnded, spot =>
    let length := plainLength inFlow spot.rest
    if spot.isAt (· = '#') || length = 0 then ([], spot, lineEnded)
    else
      let text := blanks ++ spot.rest.take length
      let (spaces, behind, lineEnded) := plainSpaces (spot.forward length)
      if spaces.isEmpty || behind.isAt (· = '#') || (!inFlow && (behind.column : Int) < indent) then
        (text, behind, lineEnded)
      else
        let (more, last, lineEnded) := plainRest inFlow indent steps spaces lineEnded behind
        (text ++ more, last, lineEnded)

inductive Chomping
  | strip
  | clip
  | keep
deriving DecidableEq, Repr

def chomping? (c : Char) : Option Chomping :=
  if c = '+' then some .keep else if c = '-' then some .strip else none

def increment? (c : Char) : Option Nat := if c.isDigit then some (c.toNat - 48) else none

def blockHeader (spot : Spot) : Except Fault (Chomping × Option Nat × Spot) := do
  let (chomping, increment, spot) :=
    match spot.peek.bind chomping?, spot.peek.bind increment? with
    | some chomping, _ =>
      match spot.next.peek.bind increment? with
      | some increment => (chomping, some increment, spot.forward 2)
      | none => (chomping, none, spot.next)
    | none, some increment =>
      match spot.next.peek.bind chomping? with
      | some chomping => (chomping, some increment, spot.forward 2)
      | none => (.clip, some increment, spot.next)
    | none, none => (.clip, none, spot)
  if increment = some 0 || !spot.isAtOrEnd isSpaceOrBreak then
    throw .malformed
  return (chomping, increment, ← spot.skipLineRest?)

/-- The place behind at most so many blanks that a column is reached. -/
def skipIndent (indent : Int) : (steps : Nat) → Spot → Spot
  | 0, spot => spot
  | steps + 1, spot =>
    if (spot.column : Int) < indent && spot.isAt (· = ' ') then skipIndent indent steps spot.next
    else spot

def blockBreaks (indent : Int) : (steps : Nat) → Spot → List Char × Spot
  | 0, spot => ([], spot)
  | steps + 1, spot =>
    let spot := skipIndent indent (spot.rest.length + 1) spot
    if spot.isAt isBreak then
      let more := blockBreaks indent steps spot.lineBreak.2
      (spot.lineBreak.1 ++ more.1, more.2)
    else ([], spot)

/-- The breaks of empty lines before the first line of a block scalar, and the greatest column that
blanks reach. -/
def blockIndent : (steps : Nat) → (column : Nat) → Spot → List Char × Nat × Spot
  | 0, column, spot => ([], column, spot)
  | steps + 1, column, spot =>
    if spot.isAt (· = ' ') then blockIndent steps (max column spot.next.column) spot.next
    else if spot.isAt isBreak then
      let (more, column, last) := blockIndent steps column spot.lineBreak.2
      (spot.lineBreak.1 ++ more, column, last)
    else ([], column, spot)

/-- The lines of a block scalar behind the given empty ones, and the break and the empty lines at
its end. -/
def blockLines (isFolded : Bool) (indent : Int) :
    (steps : Nat) → (breaks : List Char) → Spot → List Char × List Char × List Char × Spot
  | 0, breaks, spot => ([], [], breaks, spot)
  | steps + 1, breaks, spot =>
    let isText (spot : Spot) : Bool := spot.isAt fun c => c ≠ ' ' && c ≠ '\t'
    let (line, lineEnd) := spot.takeWhile (!isBreak ·)
    let lineBreak := lineEnd.lineBreak.1
    let (empty, behind) := blockBreaks indent (lineEnd.rest.length + 1) lineEnd.lineBreak.2
    if (behind.column : Int) = indent && !behind.rest.isEmpty then
      let joint := if isFolded && lineBreak = ['\n'] && isText spot && isText behind then
          if empty.isEmpty then [' '] else []
        else lineBreak
      let (more, tail) := blockLines isFolded indent steps empty behind
      (breaks ++ line ++ joint ++ more, tail)
    else (breaks ++ line, lineBreak, empty, behind)

/-- A block scalar below the given indentation. The place is at its mark. -/
def blockScalar (outer : Int) (spot : Spot) : Except Fault (List Char × Spot) := do
  let isFolded : Bool := spot.peek = some '>'
  let (chomping, increment, spot) ← blockHeader spot.next
  let least := max 1 (outer + 1)
  let steps := spot.rest.length + 1
  let (breaks, indent, first) := match increment with
    | some increment =>
      let indent := least + increment - 1
      let (breaks, first) := blockBreaks indent steps spot
      (breaks, indent, first)
    | none =>
      let (breaks, column, first) := blockIndent steps 0 spot
      (breaks, max least column, first)
  let (text, lineBreak, tail, last) :=
    if (first.column : Int) = indent && !first.rest.isEmpty then
      blockLines isFolded indent steps breaks first
    else ([], [], breaks, first)
  match chomping with
  | .strip => return (text, last)
  | .clip => return (text ++ lineBreak, last)
  | .keep => return (text ++ lineBreak ++ tail, last)

end ArchDiagram.Yaml
