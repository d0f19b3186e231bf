/-!
Finite maps from names that remember the order of their keys. A key keeps the place of its first
write and has the value of its last.
-/

namespace ArchDiagram

/-- A finite map whose keys are in the order in which they were first written. -/
structure OrderedMap (α : Type) where
  entries : List (String × α)
deriving DecidableEq, Repr

namespace OrderedMap

variable {α : Type}

def empty : OrderedMap α := ⟨[]⟩

instance : Inhabited (OrderedMap α) := ⟨empty⟩

def keys (map : OrderedMap α) : List String := map.entries.map Prod.fst

def get? (map : OrderedMap α) (key : String) : Option α := map.entries.lookup key

def contains (map : OrderedMap α) (key : String) : Bool := map.entries.any (·.1 = key)

def putEntry (key : String) (value : α) : List (String × α) → List (String × α)
  | [] => [(key, value)]
  | entry :: rest =>
    if entry.1 = key then (key, value) :: rest else entry :: putEntry key value rest

def put (map : OrderedMap α) (key : String) (value : α) : OrderedMap α :=
  ⟨putEntry key value map.entries⟩

def putNew (map : OrderedMap α) (key : String) (value : α) : OrderedMap α :=
  if map.contains key then map else ⟨map.entries ++ [(key, value)]⟩

def putAll (map : OrderedMap α) (writes : List (String × α)) : OrderedMap α :=
  writes.foldl (fun map write => map.put write.1 write.2) map

def ofList (writes : List (String × α)) : OrderedMap α := empty.putAll writes

def mapValues {β : Type} (f : String → α → β) (map : OrderedMap α) : OrderedMap β :=
  ⟨map.entries.map fun entry => (entry.1, f entry.1 entry.2)⟩

theorem keys_mapValues {β : Type} (f : String → α → β) (map : OrderedMap α) :
    (map.mapValues f).keys = map.keys := by
  simp [keys, mapValues, Function.comp_def]

end OrderedMap

end ArchDiagram
