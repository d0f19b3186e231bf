import ArchDiagram.Disk
import Mathlib.Data.List.Nodup

/-!
Ways through a tree. A path that leads to something leads through directories only, and a longer
path goes on from where a shorter one ends.
-/

namespace ArchDiagram

/-- A tree whose entries have names of their own: no two in a directory share one, and none has the
name that is kept for the parent of a directory. -/
inductive FileNode.Named : FileNode → Prop
  | file {bytes : List UInt8} : Named (.file bytes)
  | directory {entries : List (String × FileNode)} : (entries.map Prod.fst).Nodup →
      (∀ entry ∈ entries, entry.1 ≠ "..") → (∀ entry ∈ entries, Named entry.2) →
      Named (.directory entries)

namespace Disk

/-- The names and the directories on the way from a root to a node, the nearest first. -/
inductive Stands (root : FileNode) : List String → List FileNode → FileNode → Prop
  | root : Stands root [] [] root
  | child {done : List String} {ancestors : List FileNode} {entries : List (String × FileNode)}
      {name : String} {node : FileNode} : Stands root done ancestors (.directory entries) →
      name ≠ ".." → name.utf8ByteSize ≤ nameLimit → entries.lookup name = some node →
      Stands root (name :: done) (.directory entries :: ancestors) node

theorem Stands.walk {root node : FileNode} {done : List String} {ancestors : List FileNode}
    (stands : Stands root done ancestors node) (more : List String) :
    walk [] root (done.reverse ++ more) = walk ancestors node more := by
  induction stands generalizing more with
  | root => rfl
  | child _ forward short entry ih =>
    rw [List.reverse_cons, List.append_assoc, ih]
    simp only [List.cons_append, List.nil_append, Disk.walk, if_neg forward,
      if_neg (Nat.not_lt.2 short), entry]

section At

variable {disk : Disk} {path : Path}

theorem node?_eq_ok {node : FileNode} : disk.node? path = .ok node ↔
    hasNull path = false ∧ path.text.utf8ByteSize ≤ pathLimit ∧
      walk [] disk.root (disk.absoluteParts path) = .ok node := by
  unfold node?
  by_cases null : hasNull path = true
  · rw [if_pos null]
    simp [null]
  · rw [if_neg null]
    by_cases long : pathLimit < path.text.utf8ByteSize
    · rw [if_pos long]
      simp [Nat.not_le.2 long]
    · rw [if_neg long]
      simp [null, Nat.not_lt.1 long]

theorem find?_eq_some {node : FileNode} :
    disk.find? path = .ok (some node) ↔ disk.node? path = .ok node := by
  unfold find?
  cases disk.node? path with
  | ok found => simp
  | error failure => cases failure <;> simp

theorem find?_any {p : FileNode → Bool} :
    (disk.find? path).map (·.any p) = .ok true ↔ ∃ node, disk.node? path = .ok node ∧ p node := by
  constructor
  · intro holds
    cases answer : disk.find? path with
    | error fault =>
      rw [answer] at holds
      cases holds
    | ok found? =>
      rw [answer] at holds
      cases found? with
      | none => cases holds
      | some node => exact ⟨node, find?_eq_some.1 answer, Except.ok.inj holds⟩
  · rintro ⟨node, there, holds⟩
    rw [find?_eq_some.2 there]
    exact congrArg Except.ok holds

theorem isFile_iff : disk.isFile path = .ok true ↔
    ∃ node, disk.node? path = .ok node ∧ node.isFile = true :=
  find?_any

theorem isDirectory_iff : disk.isDirectory path = .ok true ↔
    ∃ node, disk.node? path = .ok node ∧ node.isFile = false := by
  rw [isDirectory, find?_any]
  simp only [Bool.not_eq_true']

theorem pathExists_iff : disk.pathExists path = .ok true ↔ ∃ node, disk.node? path = .ok node := by
  have same : disk.pathExists path = (disk.find? path).map (·.any fun _ => true) := by
    unfold pathExists
    congr 1
  rw [same, find?_any]
  simp only [and_true]

theorem not_isDirectory_of_isFile (isFile : disk.isFile path = .ok true) :
    disk.isDirectory path ≠ .ok true := by
  intro isDirectory
  obtain ⟨node, there, file⟩ := isFile_iff.1 isFile
  obtain ⟨node', there', directory⟩ := isDirectory_iff.1 isDirectory
  cases there.symm.trans there'
  cases file.symm.trans directory

end At

theorem named_of_walk {ancestors : List FileNode} {node found : FileNode} {names : List String}
    (named : node.Named) (above : ∀ above ∈ ancestors, above.Named)
    (there : walk ancestors node names = .ok found) : found.Named := by
  -- Induction on the names: the walk goes down to an entry or up to what it came from.
  induction names generalizing ancestors node with
  | nil =>
    rw [walk] at there
    cases there
    exact named
  | cons name rest ih =>
    cases named with
    | file => cases there
    | @directory entries distinct others each =>
      have whole : (FileNode.directory entries).Named := .directory distinct others each
      unfold walk at there
      split at there
      · cases ancestors with
        | nil => exact ih whole (fun _ absent => absurd absent List.not_mem_nil) there
        | cons parent more =>
          obtain ⟨first, others⟩ := List.forall_mem_cons.1 above
          exact ih first others there
      · split at there
        · cases there
        · split at there
          · cases there
          · rename_i node entry
            obtain ⟨before, after, rfl, -⟩ := List.lookup_eq_some_iff.1 entry
            refine ih (each (name, node) (by simp)) ?_ there
            exact List.forall_mem_cons.2 ⟨whole, above⟩

theorem named_of_node? {disk : Disk} {path : Path} {node : FileNode} (named : disk.root.Named)
    (there : disk.node? path = .ok node) : node.Named :=
  named_of_walk named (fun _ absent => absurd absent List.not_mem_nil) (node?_eq_ok.1 there).2.2

end Disk

namespace FileNode

theorem Named.not_mem_of_directories {node : FileNode} (named : node.Named) :
    ∀ place ∈ node.directories, ".." ∉ place := by
  induction named with
  | file => simp [directories]
  | @directory entries distinct others each ih =>
    intro place inside
    rw [directories] at inside
    rcases List.mem_cons.1 inside with rfl | below
    · exact List.not_mem_nil
    -- Only the entries matter from here on, each with what is below it.
    · clear distinct inside
      induction entries with
      | nil => cases below
      | cons first rest more =>
        rw [entriesDirectories] at below
        rcases List.mem_append.1 below with here | other
        · rw [entryDirectories] at here
          obtain ⟨place, inside, rfl⟩ := List.mem_map.1 here
          rw [List.mem_cons, not_or]
          exact ⟨(others first List.mem_cons_self).symm, ih first List.mem_cons_self place inside⟩
        · exact more (fun entry inside => others entry (.tail _ inside))
            (fun entry inside => each entry (.tail _ inside))
            (fun entry inside => ih entry (.tail _ inside)) other

end FileNode

end ArchDiagram
