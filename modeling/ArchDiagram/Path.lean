/-!
Paths as lists of components. Empty components and single dots say nothing and are dropped when a
path is read; double dots are kept, because only the file tree knows whether they lead anywhere.
-/

namespace ArchDiagram

structure Path where
  root : String
  parts : List String
deriving DecidableEq, Repr

namespace Path

def splitAt {α : Type} [DecidableEq α] (separator : α) : List α → List (List α)
  | [] => [[]]
  | x :: xs =>
    match splitAt separator xs with
    | [] => [[x]]
    | part :: rest => if x = separator then [] :: part :: rest else (x :: part) :: rest

def components (text : String) : List String :=
  ((splitAt '/' text.toList).map String.ofList).filter fun part => part ≠ "" ∧ part ≠ "."

/-- The slashes that a text begins with. Exactly two of them differ from one; more do not. -/
def rootOf : List Char → String
  | '/' :: '/' :: '/' :: _ => "/"
  | '/' :: '/' :: _ => "//"
  | '/' :: _ => "/"
  | _ => ""

def ofText (text : String) : Path := ⟨rootOf text.toList, components text⟩

def isAbsolute (path : Path) : Bool := path.root ≠ ""

/-- The path as text. The path without components is a single dot. -/
def text (path : Path) : String :=
  if path.root = "" ∧ path.parts = [] then "." else path.root ++ "/".intercalate path.parts

def child (path : Path) (name : String) : Path := { path with parts := path.parts ++ [name] }

def append (path : Path) (parts : List String) : Path := { path with parts := path.parts ++ parts }

def parent (path : Path) : Path := { path with parts := path.parts.dropLast }

/-- The path and the directories above it, the nearest first. -/
def upwards (path : Path) : List Path :=
  (List.range (path.parts.length + 1)).map fun dropped =>
    { path with parts := path.parts.take (path.parts.length - dropped) }

/-- Components without double dots; each one takes back the component before it. -/
def resolveParts : (done : List String) → List String → List String
  | done, [] => done.reverse
  | done, part :: rest =>
    if part = ".." then resolveParts done.tail rest else resolveParts (part :: done) rest

/-- Whether a path comes before another one: component by component, by code points. -/
def le (a b : Path) : Bool := !b.parts.lex a.parts

end Path

end ArchDiagram
