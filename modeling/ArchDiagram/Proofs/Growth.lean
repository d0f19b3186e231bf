import ArchDiagram.Disk.Text
import ArchDiagram.Proofs.Selection

/-!
Trees that get one more file. Everything that was there is still there, and all that is new can be
seen only by a path that ends with the name of the file.
-/

namespace ArchDiagram

namespace FileNode

/-- A tree with one more file, at the end of the directory at a place. Everything else is as it was
and where it was. -/
inductive Added (name : String) (bytes : List UInt8) : List String → FileNode → FileNode → Prop
  | here {entries : List (String × FileNode)} : (∀ entry ∈ entries, entry.1 ≠ name) →
      Added name bytes [] (.directory entries) (.directory (entries ++ [(name, .file bytes)]))
  | within {directory : String} {place : List String} {node node' : FileNode}
      {before after : List (String × FileNode)} : (∀ entry ∈ before, entry.1 ≠ directory) →
      Added name bytes place node node' →
      Added name bytes (directory :: place) (.directory (before ++ (directory, node) :: after))
        (.directory (before ++ (directory, node') :: after))

section Put

variable {name : String} {bytes : List UInt8}

theorem Added.walk {place : List String} {ancestors ancestors' : List FileNode}
    {node node' : FileNode} {entries : List (String × FileNode)}
    (added : Added name bytes place node node') (forward : ".." ∉ place)
    (there : Disk.walk ancestors node place = .ok (.directory entries)) (isName : name ≠ "..")
    (short : name.utf8ByteSize ≤ Disk.nameLimit) :
    Disk.walk ancestors' node' (place ++ [name]) = .ok (.file bytes) := by
  induction added generalizing ancestors ancestors' with
  | @here own absent =>
    have last : (own ++ [(name, file bytes)]).lookup name = some (.file bytes) :=
      List.lookup_eq_some_iff.2 ⟨own, [], rfl, fun entry inside =>
        bne_iff_ne.2 (absent entry inside).symm⟩
    simp only [List.nil_append, Disk.walk, if_neg isName, if_neg (Nat.not_lt.2 short), last]
  | @within key rest child child' before after first _ ih =>
    obtain ⟨other, forward⟩ : key ≠ ".." ∧ ".." ∉ rest := by
      rw [List.mem_cons, not_or] at forward
      exact ⟨Ne.symm forward.1, forward.2⟩
    have entry (node : FileNode) : (before ++ (key, node) :: after).lookup key = some node :=
      List.lookup_eq_some_iff.2 ⟨before, after, rfl, fun entry inside =>
        bne_iff_ne.2 (first entry inside).symm⟩
    simp only [Disk.walk, if_neg other, entry] at there
    split at there
    · cases there
    · rename_i fits
      simp only [List.cons_append, Disk.walk, if_neg other, if_neg fits, entry]
      exact ih forward there

end Put

section Grown

variable (name : String) (bytes : List UInt8)

/-- A tree, or the same tree with a file added somewhere. -/
inductive Grown (node : FileNode) : FileNode → Prop
  | same : Grown node node
  | added {place : List String} {node' : FileNode} : Added name bytes place node node' →
      Grown node node'

/-- What is seen before and after a file was added: the same, or, only where it can be, the file. -/
inductive Seen (isNew : Prop) : Option FileNode → Option FileNode → Prop
  | nothing : Seen isNew none none
  | grown {node node' : FileNode} : Grown name bytes node node' →
      Seen isNew (some node) (some node')
  | new : isNew → Seen isNew none (some (.file bytes))

variable {name bytes}

theorem Grown.isFile_eq {node node' : FileNode} (grown : Grown name bytes node node') :
    node'.isFile = node.isFile := by
  cases grown with
  | same => rfl
  | added added =>
    cases added with
    | here => rfl
    | within => rfl

theorem Grown.of_file {own : List UInt8} {node' : FileNode}
    (grown : Grown name bytes (.file own) node') : node' = .file own := by
  cases grown with
  | same => rfl
  | added added => cases added

theorem Grown.lookup {entries : List (String × FileNode)} {node' : FileNode}
    (grown : Grown name bytes (.directory entries) node') :
    ∃ entries', node' = .directory entries' ∧ ∀ key,
      Seen name bytes (key = name) (entries.lookup key) (entries'.lookup key) := by
  have seen (found? : Option FileNode) (key : String) :
      Seen name bytes (key = name) found? found? := by
    cases found? with
    | none => exact .nothing
    | some node => exact .grown .same
  cases grown with
  | same => exact ⟨entries, rfl, fun key => seen _ key⟩
  | added added =>
    cases added with
    | here absent =>
      refine ⟨_, rfl, fun key => ?_⟩
      rw [List.lookup_append]
      cases entry : entries.lookup key with
      | some node => exact .grown .same
      | none =>
        by_cases same : key = name
        · subst same
          rw [Option.none_or, List.lookup_cons_self]
          exact .new rfl
        · rw [Option.none_or, List.lookup_cons, beq_eq_false_iff_ne.2 same]
          exact .nothing
    -- The entry that grew keeps its place, so names before it hide it as they did.
    | @within directory place node node' before after first added =>
      refine ⟨_, rfl, fun key => ?_⟩
      rw [List.lookup_append, List.lookup_append]
      cases before.lookup key with
      | some node => exact .grown .same
      | none =>
        rw [Option.none_or, Option.none_or, List.lookup_cons, List.lookup_cons]
        cases key == directory with
        | true => exact .grown (.added added)
        | false => exact seen _ key

theorem entriesDirectories_append (entries more : List (String × FileNode)) :
    entriesDirectories (entries ++ more) =
      entriesDirectories entries ++ entriesDirectories more := by
  induction entries with
  | nil => rfl
  | cons entry rest ih =>
    rw [List.cons_append, entriesDirectories, entriesDirectories, ih, List.append_assoc]

theorem Added.directories_eq {place : List String} {node node' : FileNode}
    (added : Added name bytes place node node') : node'.directories = node.directories := by
  induction added with
  | here =>
    simp [directories, entriesDirectories_append, entriesDirectories, entryDirectories]
  | within _ _ ih =>
    simp [directories, entriesDirectories_append, entriesDirectories, entryDirectories, ih]

theorem Grown.directories_eq {node node' : FileNode} (grown : Grown name bytes node node') :
    node'.directories = node.directories := by
  cases grown with
  | same => rfl
  | added added => exact added.directories_eq

end Grown

end FileNode

open FileNode (Added Grown Seen)

/-- A disk, or the same disk with a file added somewhere. -/
structure Disk.Grown (name : String) (bytes : List UInt8) (disk disk' : Disk) : Prop where
  location : disk'.location = disk.location
  root : FileNode.Grown name bytes disk.root disk'.root

namespace Disk

variable {name : String} {bytes : List UInt8}

/-- Walks come to the same as before, unless there was no entry of the new name: then they come to
the new file, or fail because it is no directory. -/
theorem walk_grown (names : List String) {ancestors ancestors' : List FileNode}
    {node node' : FileNode} (above : List.Forall₂ (FileNode.Grown name bytes) ancestors ancestors')
    (grown : FileNode.Grown name bytes node node') :
    (∃ failure, walk ancestors node names = .error failure ∧
      walk ancestors' node' names = .error failure) ∨
    (∃ found found', walk ancestors node names = .ok found ∧
      walk ancestors' node' names = .ok found' ∧ FileNode.Grown name bytes found found') ∨
    (walk ancestors node names = .error .notFound ∧
      (walk ancestors' node' names = .error .notADirectory ∨
        walk ancestors' node' names = .ok (.file bytes) ∧ names.getLast? = some name)) := by
  induction names generalizing ancestors ancestors' node node' with
  | nil => exact .inr (.inl ⟨node, node', rfl, rfl, grown⟩)
  | cons key rest ih =>
    -- What comes of the rest of the names does not depend on those before it.
    have later {ancestors ancestors' : List FileNode} {node node' : FileNode}
        (above : List.Forall₂ (FileNode.Grown name bytes) ancestors ancestors')
        (grown : FileNode.Grown name bytes node node') := by
      have there := ih above grown
      have last (ends : rest.getLast? = some name) : (key :: rest).getLast? = some name := by
        rw [List.getLast?_cons, ends]
        rfl
      exact there.imp_right (Or.imp_right (And.imp_right (Or.imp_right (And.imp_right last))))
    cases node with
    | file own =>
      cases grown.of_file
      exact .inl ⟨.notADirectory, rfl, rfl⟩
    | directory entries =>
      obtain ⟨entries', rfl, seen⟩ := grown.lookup
      simp only [walk]
      by_cases back : key = ".."
      · simp only [if_pos back]
        cases above with
        | nil => exact later .nil grown
        | cons parent above => exact later above parent
      · simp only [if_neg back]
        by_cases long : nameLimit < key.utf8ByteSize
        · simp only [if_pos long]
          exact .inl ⟨.nameTooLong, rfl, rfl⟩
        · simp only [if_neg long]
          have seen := seen key
          generalize entries.lookup key = found? at seen ⊢
          generalize entries'.lookup key = found'? at seen ⊢
          cases seen with
          | nothing => exact .inl ⟨.notFound, rfl, rfl⟩
          | grown child => exact later (.cons grown above) child
          | new same =>
            refine .inr (.inr ⟨rfl, ?_⟩)
            cases rest with
            | nil => exact .inr ⟨rfl, congrArg some same⟩
            | cons => exact .inl rfl

section At

variable {disk disk' : Disk} {path : Path}

theorem Grown.absoluteParts_eq (grown : Grown name bytes disk disk') :
    disk'.absoluteParts path = disk.absoluteParts path := by
  rw [absoluteParts, absoluteParts, grown.location]

theorem Grown.find? (grown : Grown name bytes disk disk') (path : Path) :
    (∃ fault, disk.find? path = .error fault ∧ disk'.find? path = .error fault) ∨
    ∃ found? found'?, disk.find? path = .ok found? ∧ disk'.find? path = .ok found'? ∧
      Seen name bytes ((disk.absoluteParts path).getLast? = some name) found? found'? := by
  -- A path that cannot be used fails on both disks alike.
  have same {failure : Failure} (fails : disk.node? path = .error failure)
      (fails' : disk'.node? path = .error failure) :
      (∃ fault, disk.find? path = .error fault ∧ disk'.find? path = .error fault) ∨
      ∃ found? found'?, disk.find? path = .ok found? ∧ disk'.find? path = .ok found'? ∧
        Seen name bytes ((disk.absoluteParts path).getLast? = some name) found? found'? := by
    simp only [Disk.find?, fails, fails']
    cases failure with
    | nameTooLong => exact .inl ⟨_, rfl, rfl⟩
    | _ => exact .inr ⟨_, _, rfl, rfl, .nothing⟩
  by_cases null : hasNull path = true
  · exact same (if_pos null) (if_pos null)
  · by_cases long : pathLimit < path.text.utf8ByteSize
    · exact same ((if_neg null).trans (if_pos long)) ((if_neg null).trans (if_pos long))
    · have node : disk.node? path = walk [] disk.root (disk.absoluteParts path) :=
        (if_neg null).trans (if_neg long)
      have node' : disk'.node? path = walk [] disk'.root (disk.absoluteParts path) := by
        rw [← grown.absoluteParts_eq]
        exact (if_neg null).trans (if_neg long)
      rcases walk_grown (disk.absoluteParts path) .nil grown.root with
        ⟨failure, fails, fails'⟩ | ⟨found, found', there, there', more⟩ |
          ⟨fails, fails' | ⟨there', last⟩⟩
      · exact same (node.trans fails) (node'.trans fails')
      · exact .inr ⟨some found, some found', find?_eq_some.2 (node.trans there),
          find?_eq_some.2 (node'.trans there'), .grown more⟩
      · refine .inr ⟨none, none, ?_, ?_, .nothing⟩
        · simp only [Disk.find?, node, fails]
        · simp only [Disk.find?, node', fails']
      · refine .inr ⟨none, some (.file bytes), ?_, find?_eq_some.2 (node'.trans there'), .new last⟩
        simp only [Disk.find?, node, fails]

theorem Grown.isDirectory_eq (grown : Grown name bytes disk disk') (path : Path) :
    disk'.isDirectory path = disk.isDirectory path := by
  rw [isDirectory, isDirectory]
  rcases grown.find? path with ⟨fault, fails, fails'⟩ | ⟨_, _, found, found', seen⟩
  · rw [fails, fails']
  · rw [found, found']
    cases seen with
    | nothing => rfl
    | grown more => exact congrArg (fun isFile => Except.ok !isFile) more.isFile_eq
    | new => rfl

theorem Grown.directories_eq (grown : Grown name bytes disk disk') (path : Path) :
    disk'.directories path = disk.directories path := by
  have asked : disk'.isDirectory = disk.isDirectory := funext grown.isDirectory_eq
  unfold directories
  rw [asked]
  rcases grown.find? path with ⟨fault, fails, fails'⟩ | ⟨_, _, found, found', seen⟩
  · rw [fails, fails']
  · rw [found, found']
    cases seen with
    | nothing => rfl
    | grown more =>
      exact congrArg (fun places : List (List String) =>
        (places.map path.append).filterM disk.isDirectory) more.directories_eq
    | new => rfl

end At

end Disk

-- Selecting files. A pattern that matches no name like that of the new file does not select it.

section Select

variable {name : String} {bytes : List UInt8} {disk disk' : Disk} {path : Path}

end Select

end ArchDiagram
