import ArchDiagram.Disk
import ArchDiagram.Text.CodePoints

/-!
Patterns for paths. A component of a pattern is a name, a name with wildcards, two stars for any
number of directories, or a double dot. Within a name, a star stands for any text, a question mark
for one character, and brackets for one character of a class. Patterns are texts of code points:
halves of surrogate pairs occur in no name, but a class can reach across them.
-/

namespace ArchDiagram

open ArchDiagram.Text (CodePoints)

namespace Sign

@[match_pattern]
abbrev exclamation : Nat := 0x21

@[match_pattern]
abbrev star : Nat := 0x2a

@[match_pattern]
abbrev hyphen : Nat := 0x2d

@[match_pattern]
abbrev slash : Nat := 0x2f

@[match_pattern]
abbrev question : Nat := 0x3f

@[match_pattern]
abbrev opening : Nat := 0x5b

@[match_pattern]
abbrev closing : Nat := 0x5d

end Sign

inductive ClassPart
  | single (code : Nat)
  | range (low high : Nat)
deriving DecidableEq, Repr

namespace ClassPart

def isEmpty : ClassPart → Bool
  | single _ => false
  | range low high => high < low

def contains : ClassPart → Nat → Bool
  | single own, code => own = code
  | range low high, code => low ≤ code && code ≤ high

/-- The parts that the inside of a pair of brackets spells. A hyphen between two characters makes a
range; any other hyphen stands for itself. Ranges without characters are left out. -/
def parse : CodePoints → List ClassPart
  | [] => []
  | low :: Sign.hyphen :: high :: rest =>
    if (range low high).isEmpty then parse rest else range low high :: parse rest
  | code :: rest => single code :: parse rest

end ClassPart

/-- An element of a name with wildcards. A class holds the characters of its parts, or all
others. -/
inductive Wildcard
  | anyText
  | anyChar
  | char (code : Nat)
  | oneOf (negated : Bool) (parts : List ClassPart)
deriving DecidableEq, Repr

namespace Wildcard

/-- The class of the parts between brackets that begin with no exclamation mark. Ranges without
characters are left out first, so a mark can come to the front, and then it negates. Where it began
a range, the hyphen and the end of the range stand for themselves. -/
def ofParts : List ClassPart → Wildcard
  | .single Sign.exclamation :: rest => .oneOf true rest
  | .range Sign.exclamation high :: rest =>
    .oneOf true (.single Sign.hyphen :: .single high :: rest)
  | parts => .oneOf false parts

/-- The inside of brackets up to the closing one, and the text behind it. A closing bracket at the
beginning stands for itself. -/
def cutClass? : CodePoints → Option (CodePoints × CodePoints)
  | [] => none
  | code :: codes =>
    let inside := code :: codes.takeWhile (· ≠ Sign.closing)
    match codes.dropWhile (· ≠ Sign.closing) with
    | [] => none
    | _ :: rest => some (inside, rest)

/-- The class behind an opening bracket, with the text behind the closing one. -/
def class? : CodePoints → Option (Wildcard × CodePoints)
  | Sign.exclamation :: codes =>
    (cutClass? codes).map fun (inside, rest) => (.oneOf true (ClassPart.parse inside), rest)
  | codes => (cutClass? codes).map fun (inside, rest) => (ofParts (ClassPart.parse inside), rest)

theorem length_lt_of_cutClass? {codes inside rest : CodePoints}
    (found : cutClass? codes = some (inside, rest)) : rest.length < codes.length := by
  unfold cutClass? at found
  split at found
  · simp at found
  · rename_i code codes
    split at found
    · simp at found
    · rename_i first more behind
      simp only [Option.some.injEq, Prod.mk.injEq] at found
      have shorter := (List.dropWhile_suffix (· ≠ Sign.closing) (l := codes)).length_le
      rw [behind, List.length_cons] at shorter
      rw [← found.2, List.length_cons]
      omega

theorem length_lt_of_class? {codes rest : CodePoints} {item : Wildcard}
    (found : class? codes = some (item, rest)) : rest.length < codes.length := by
  unfold class? at found
  split at found
  · obtain ⟨⟨inside, behind⟩, cut, same⟩ := Option.map_eq_some_iff.1 found
    simp only [Prod.mk.injEq] at same
    have shorter := length_lt_of_cutClass? cut
    rw [← same.2, List.length_cons]
    omega
  · obtain ⟨⟨inside, behind⟩, cut, same⟩ := Option.map_eq_some_iff.1 found
    simp only [Prod.mk.injEq] at same
    rw [← same.2]
    exact length_lt_of_cutClass? cut

/-- The elements of a name. An opening bracket without a closing one stands for itself. -/
def parse : CodePoints → List Wildcard
  | [] => []
  | Sign.star :: rest => .anyText :: parse rest
  | Sign.question :: rest => .anyChar :: parse rest
  | Sign.opening :: rest =>
    match found : class? rest with
    | some (item, behind) =>
      have := length_lt_of_class? found
      item :: parse behind
    | none => .char Sign.opening :: parse rest
  | code :: rest => .char code :: parse rest
termination_by codes => codes.length

def allows : Wildcard → Nat → Bool
  | anyText, _ | anyChar, _ => true
  | char own, code => own = code
  | oneOf negated parts, code => parts.any (·.contains code) != negated

def matchesAll : List Wildcard → CodePoints → Bool
  | [], text => text.isEmpty
  | .anyText :: rest, [] => matchesAll rest []
  | .anyText :: rest, code :: text =>
    matchesAll rest (code :: text) || matchesAll (.anyText :: rest) text
  | _ :: _, [] => false
  | item :: rest, code :: text => item.allows code && matchesAll rest text
termination_by items text => items.length + text.length

end Wildcard

/-- A component of a pattern. One that is no name of anything leads nowhere. -/
inductive PatternPart
  | anyDepth
  | parent
  | nowhere
  | name (text : String)
  | wildcards (items : List Wildcard)
deriving DecidableEq, Repr

/-- A pattern for paths below a directory. A slash at its end restricts it to directories. -/
structure Pattern where
  parts : List PatternPart
  onlyDirectories : Bool
deriving DecidableEq, Repr

namespace Pattern

inductive Fault
  | empty
  | absolute
  | starsInName
  | onlyDot
  | onlyDotSlash
deriving DecidableEq, Repr

def Fault.message : Fault → String
  | empty => "Unacceptable pattern: ''"
  | absolute => "Non-relative patterns are unsupported"
  | starsInName => "Invalid pattern: '**' can only be an entire path component"
  | onlyDot => "tuple index out of range"
  | onlyDotSlash => "'_TerminatingSelector' object has no attribute 'select_from'"

def hasTwoStars : CodePoints → Bool
  | Sign.star :: Sign.star :: _ => true
  | _ :: rest => hasTwoStars rest
  | [] => false

def part? (codes : CodePoints) : Except Fault PatternPart :=
  if codes = Text.codes "**" then .ok .anyDepth
  else if codes = Text.codes ".." then .ok .parent
  else if hasTwoStars codes then .error .starsInName
  else if codes.any [Sign.star, Sign.question, Sign.opening].contains then
    .ok (.wildcards (Wildcard.parse codes))
  else match Text.string? codes with
    | some text => .ok (.name text)
    | none => .ok .nowhere

/-- The components of a pattern; as in a path, empty ones and single dots are dropped. -/
def components (codes : CodePoints) : List CodePoints :=
  (Path.splitAt Sign.slash codes).filter fun part => part ≠ [] ∧ part ≠ Text.codes "."

def ofCodes? (codes : CodePoints) : Except Fault Pattern :=
  let endsWithSlash : Bool := codes.getLast? = some Sign.slash
  if codes = [] then .error .empty
  else if codes.head? = some Sign.slash then .error .absolute
  else if components codes = [] then .error (if endsWithSlash then .onlyDotSlash else .onlyDot)
  else ((components codes).mapM part?).map fun parts => ⟨parts, endsWithSlash⟩

/-- The paths that parts select from a path. A part with others behind it goes through directories
only. -/
def select (disk : Disk) (onlyDirectories : Bool) :
    List PatternPart → Path → Except Disk.Unusable (List Path)
  | [], path => .ok [path]
  | part :: rest, path =>
    let through := onlyDirectories || !rest.isEmpty
    match part with
    -- The path itself is among its directories: two stars also stand for no directory at all.
    | .anyDepth => do
      let directories ← disk.directories path
      return (← directories.mapM (select disk onlyDirectories rest)).flatten
    | .parent => select disk onlyDirectories rest (path.child "..")
    | .nowhere => return []
    | .name text => do
      let next := path.child text
      if ← if through then disk.isDirectory next else disk.pathExists next then
        select disk onlyDirectories rest next
      else
        return []
    | .wildcards items => do
      let fitting := (← disk.entries path).filter fun (name, node) =>
        (!through || !node.isFile) && Wildcard.matchesAll items (Text.codes name)
      let found ← fitting.mapM fun entry => select disk onlyDirectories rest (path.child entry.1)
      return found.flatten

def paths (pattern : Pattern) (disk : Disk) (root : Path) : Except Disk.Unusable (List Path) := do
  if ← disk.isDirectory root then
    select disk pattern.onlyDirectories pattern.parts root
  else
    return []

end Pattern

end ArchDiagram
