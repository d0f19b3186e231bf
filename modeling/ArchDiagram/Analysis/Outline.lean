import ArchDiagram.Syntax

/-!
The declarations of a diagram in document order, each with the package around it. Every analysis
looks at this list, so nesting matters only for the package of an entity.
-/

namespace ArchDiagram.Analysis

structure Placed (α : Type) where
  package : Option String
  decl : α
deriving DecidableEq, Repr

mutual

def itemOutline (package : Option String) : Item → List (Placed Declaration)
  | .package name body _ => outline (some name) body
  | .declaration decl => [⟨package, decl⟩]

def outline (package : Option String) : List Item → List (Placed Declaration)
  | [] => []
  | item :: rest => itemOutline package item ++ outline package rest

end

def declarations (body : List Item) : List (Placed Declaration) := outline none body

def entityDecls (body : List Item) : List (Placed EntityDecl) :=
  (declarations body).filterMap fun placed =>
    match placed.decl with
    | .entity decl => some ⟨placed.package, decl⟩
    | _ => none

def relationDecls (body : List Item) : List RelationDecl :=
  (declarations body).filterMap fun placed =>
    match placed.decl with
    | .relation decl => some decl
    | _ => none

def noteDecls (body : List Item) : List NoteDecl :=
  (declarations body).filterMap fun placed =>
    match placed.decl with
    | .note decl => some decl
    | _ => none

def styleDecls (body : List Item) : List StyleDecl :=
  (declarations body).filterMap fun placed =>
    match placed.decl with
    | .style decl => some decl
    | _ => none

def layoutDecls (body : List Item) : List LayoutDecl :=
  (declarations body).filterMap fun placed =>
    match placed.decl with
    | .layout decl => some decl
    | _ => none

/-- The entities by name. Of several declarations of a name the first one counts. -/
def keptEntities (body : List Item) : OrderedMap (Placed EntityDecl) :=
  (entityDecls body).foldl (fun map placed => map.putNew placed.decl.name placed) .empty

/-- Each element of a list with the ones before it, the latest first. -/
def withEarlierFrom {α : Type} (earlier : List α) : List α → List (List α × α)
  | [] => []
  | x :: rest => (earlier, x) :: withEarlierFrom (x :: earlier) rest

def withEarlier {α : Type} (xs : List α) : List (List α × α) := withEarlierFrom [] xs

end ArchDiagram.Analysis
