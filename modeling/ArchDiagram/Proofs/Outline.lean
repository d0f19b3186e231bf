import ArchDiagram.Analysis.Findings
import Mathlib.Data.List.Induction
import Mathlib.Data.List.Nodup

/-!
The entities of a diagram that count. They are the declarations without an earlier one of the same
name, in the order in which they are declared.
-/

namespace ArchDiagram

namespace OrderedMap

variable {α β γ : Type}

theorem contains_mapValues (f : String → α → β) (map : OrderedMap α) (key : String) :
    (map.mapValues f).contains key = map.contains key := by
  simp [contains, mapValues, Function.comp_def]

theorem putNew_mapValues (f : α → β) (map : OrderedMap α) (key : String) (value : α) :
    (map.mapValues fun _ => f).putNew key (f value) = (map.putNew key value).mapValues fun _ => f := by
  unfold putNew
  rw [contains_mapValues]
  split
  · rfl
  · simp [mapValues]

theorem mapValues_mapValues (f : String → α → β) (g : String → β → γ) (map : OrderedMap α) :
    (map.mapValues f).mapValues g = map.mapValues fun key value => g key (f key value) := by
  simp [mapValues]

end OrderedMap

namespace Analysis

theorem filterMap_map_comm {α β γ δ : Type} {f : α → β} {g : γ → δ} {choose : α → Option γ}
    {choose' : β → Option δ} (same : ∀ x, choose' (f x) = (choose x).map g) (xs : List α) :
    (xs.map f).filterMap choose' = (xs.filterMap choose).map g := by
  rw [List.filterMap_map, List.map_filterMap]
  exact congrArg (List.filterMap · xs) (funext same)

section Earlier

variable {α β : Type}

theorem withEarlier_map (g : α → β) (xs : List α) : withEarlier (xs.map g) =
    (withEarlier xs).map fun (earlier, x) => (earlier.map g, g x) := by
  have step (earlier : List α) : withEarlierFrom (earlier.map g) (xs.map g) =
      (withEarlierFrom earlier xs).map fun (earlier, x) => (earlier.map g, g x) := by
    induction xs generalizing earlier with
    | nil => rfl
    | cons x rest ih =>
      have more := ih (x :: earlier)
      rw [List.map_cons] at more
      rw [List.map_cons, withEarlierFrom, withEarlierFrom, List.map_cons, more]
  exact step []

theorem map_snd_withEarlier (xs : List α) : (withEarlier xs).map Prod.snd = xs := by
  have from_ (earlier : List α) : (withEarlierFrom earlier xs).map Prod.snd = xs := by
    induction xs generalizing earlier with
    | nil => rfl
    | cons x rest ih => rw [withEarlierFrom, List.map_cons, ih]
  exact from_ []

theorem withEarlier_concat (xs : List α) (x : α) :
    withEarlier (xs ++ [x]) = withEarlier xs ++ [(xs.reverse, x)] := by
  have from_ (earlier : List α) : withEarlierFrom earlier (xs ++ [x]) =
      withEarlierFrom earlier xs ++ [(xs.reverse ++ earlier, x)] := by
    induction xs generalizing earlier with
    | nil => rfl
    | cons y rest ih =>
      rw [List.cons_append, withEarlierFrom, withEarlierFrom, ih, List.cons_append,
        List.reverse_cons, List.append_assoc]
      rfl
  rw [withEarlier, from_, List.append_nil]
  rfl

theorem mem_withEarlierFrom {earlier xs found : List α} {x : α} :
    (found, x) ∈ withEarlierFrom earlier xs ↔
      ∃ before after, xs = before ++ x :: after ∧ found = before.reverse ++ earlier := by
  induction xs generalizing earlier with
  | nil => simp [withEarlierFrom]
  | cons y rest ih =>
    rw [withEarlierFrom, List.mem_cons, ih]
    constructor
    · rintro (here | ⟨before, after, rfl, rfl⟩)
      · cases here
        exact ⟨[], rest, rfl, rfl⟩
      · exact ⟨y :: before, after, rfl, by simp⟩
    · rintro ⟨before, after, whole, rfl⟩
      cases before with
      | nil =>
        cases whole
        exact Or.inl rfl
      | cons z before =>
        cases whole
        exact Or.inr ⟨before, after, rfl, by simp⟩

theorem mem_withEarlier {xs found : List α} {x : α} :
    (found, x) ∈ withEarlier xs ↔
      ∃ before after, xs = before ++ x :: after ∧ found = before.reverse := by
  simp [withEarlier, mem_withEarlierFrom]

theorem nodup_of_withEarlier (key : α → Option β) {xs : List α}
    (fresh : ∀ found x, (found, x) ∈ withEarlier xs → ∀ k, key x = some k →
      k ∉ found.filterMap key) : (xs.filterMap key).Nodup := by
  induction xs using List.reverseRecOn with
  | nil => exact .nil
  | append_singleton xs x ih =>
    have front : (xs.filterMap key).Nodup := by
      apply ih
      intro found y member
      obtain ⟨before, after, rfl, rfl⟩ := mem_withEarlier.1 member
      exact fresh _ y (mem_withEarlier.2 ⟨before, after ++ [x], by simp, rfl⟩)
    have last := fresh xs.reverse x (mem_withEarlier.2 ⟨xs, [], rfl, rfl⟩)
    rw [List.filterMap_append]
    cases found : key x with
    | none => simpa [found] using front
    | some k =>
      have new := last k found
      rw [List.filterMap_reverse, List.mem_reverse] at new
      rw [List.filterMap_cons_some found, List.filterMap_nil]
      simpa using front.concat new

theorem nodup_map_of_withEarlier (key : α → β) {xs : List α}
    (fresh : ∀ found x, (found, x) ∈ withEarlier xs → key x ∉ found.map key) :
    (xs.map key).Nodup := by
  rw [← List.filterMap_eq_map]
  refine nodup_of_withEarlier _ fun found x member k same => ?_
  cases same
  rw [List.filterMap_eq_map]
  exact fresh found x member

theorem exists_mem_withEarlier {xs : List α} {x : α} (member : x ∈ xs) :
    ∃ found, (found, x) ∈ withEarlier xs := by
  obtain ⟨before, after, whole⟩ := List.append_of_mem member
  exact ⟨before.reverse, mem_withEarlier.2 ⟨before, after, whole, rfl⟩⟩

end Earlier

/-- What a map holds after a list of declarations was put into it: of each name the first one, in
the order of the list. -/
structure Keeps (found : List (Placed EntityDecl)) (map : OrderedMap (Placed EntityDecl)) : Prop where
  keyed : ∀ entry ∈ map.entries, entry.1 = entry.2.decl.name
  unique : map.keys.Nodup
  inOrder : (map.entries.map Prod.snd).Sublist found
  first : ∀ name, (map.entries.map Prod.snd).find? (·.decl.name = name) =
    found.find? (·.decl.name = name)

namespace Keeps

variable {found : List (Placed EntityDecl)} {map : OrderedMap (Placed EntityDecl)}

theorem keys_eq (keeps : Keeps found map) :
    map.keys = (map.entries.map Prod.snd).map (·.decl.name) := by
  rw [OrderedMap.keys, List.map_map]
  exact List.map_congr_left keeps.keyed

theorem mem_keys (keeps : Keeps found map) (name : String) :
    name ∈ map.keys ↔ name ∈ found.map (·.decl.name) := by
  have known (list : List (Placed EntityDecl)) :
      name ∈ list.map (·.decl.name) ↔ (list.find? (·.decl.name = name)).isSome = true := by
    simp
  rw [keeps.keys_eq, known, known, keeps.first]

theorem empty : Keeps [] .empty where
  keyed := by simp [OrderedMap.empty]
  unique := .nil
  inOrder := .slnil
  first _ := rfl

theorem putNew (keeps : Keeps found map) (placed : Placed EntityDecl) :
    Keeps (found ++ [placed]) (map.putNew placed.decl.name placed) := by
  have contains : map.contains placed.decl.name = true ↔ placed.decl.name ∈ map.keys := by
    simp [OrderedMap.contains, OrderedMap.keys]
  unfold OrderedMap.putNew
  by_cases known : placed.decl.name ∈ map.keys
  · rw [if_pos (contains.2 known)]
    constructor
    · exact keeps.keyed
    · exact keeps.unique
    · exact keeps.inOrder.trans (List.sublist_append_left found [placed])
    · intro name
      rw [keeps.first, List.find?_append]
      by_cases same : placed.decl.name = name
      · rw [keeps.mem_keys, same] at known
        have earlier : (found.find? (·.decl.name = name)).isSome = true := by simpa using known
        -- The earlier declaration is found first, so the new one is not seen.
        rw [Option.or_of_isSome earlier]
      · simp [same]
  · rw [if_neg (mt contains.1 known)]
    constructor
    · intro entry member
      rcases List.mem_append.1 member with old | new
      · exact keeps.keyed entry old
      · rw [List.mem_singleton.1 new]
    · simpa [OrderedMap.keys] using keeps.unique.concat known
    · rw [List.map_append]
      exact keeps.inOrder.append (List.Sublist.refl [placed])
    · intro name
      rw [List.map_append, List.find?_append, List.find?_append, keeps.first]
      rfl

theorem entries_eq (keeps : Keeps found map) (distinct : (found.map (·.decl.name)).Nodup) :
    map.entries.map Prod.snd = found := by
  apply keeps.inOrder.eq_of_length_le
  have inside : found.map (·.decl.name) ⊆ map.keys := fun name => (keeps.mem_keys name).2
  simpa [OrderedMap.keys] using distinct.length_le_of_subset inside

end Keeps

def keepFirst (found : List (Placed EntityDecl)) : OrderedMap (Placed EntityDecl) :=
  found.foldl (fun map placed => map.putNew placed.decl.name placed) .empty

theorem keptEntities_eq (body : List Item) : keptEntities body = keepFirst (entityDecls body) := rfl

theorem keepFirst_concat (found : List (Placed EntityDecl)) (placed : Placed EntityDecl) :
    keepFirst (found ++ [placed]) = (keepFirst found).putNew placed.decl.name placed :=
  List.foldl_append

theorem keepFirst_map {g : Placed EntityDecl → Placed EntityDecl}
    (named : ∀ placed, (g placed).decl.name = placed.decl.name) (found : List (Placed EntityDecl)) :
    keepFirst (found.map g) = (keepFirst found).mapValues fun _ => g := by
  -- What is kept goes by names, so it commutes with a change of declarations that leaves them.
  induction found using List.reverseRecOn with
  | nil => rfl
  | append_singleton found placed ih =>
    rw [List.map_append, List.map_singleton, keepFirst_concat, keepFirst_concat, ih, named,
      OrderedMap.putNew_mapValues]

theorem keeps_keepFirst (found : List (Placed EntityDecl)) : Keeps found (keepFirst found) := by
  induction found using List.reverseRecOn with
  | nil => exact .empty
  | append_singleton found placed ih =>
    rw [keepFirst_concat]
    exact ih.putNew placed

theorem keeps_keptEntities (body : List Item) : Keeps (entityDecls body) (keptEntities body) :=
  keeps_keepFirst (entityDecls body)

/-- The entities of a diagram that count, in the order of their declarations. -/
def countedEntities (diagram : DiagramDecl) : List EntityDecl :=
  (keptEntities diagram.body).entries.map (·.2.decl)

section Counted

variable (diagram : DiagramDecl)

theorem countedEntities_eq :
    countedEntities diagram = ((keptEntities diagram.body).entries.map Prod.snd).map (·.decl) := by
  rw [List.map_map]
  rfl

theorem map_name_countedEntities :
    (countedEntities diagram).map (·.name) = (keptEntities diagram.body).keys := by
  rw [countedEntities_eq, List.map_map, (keeps_keptEntities diagram.body).keys_eq]
  rfl

theorem nodup_countedEntities : ((countedEntities diagram).map (·.name)).Nodup := by
  rw [map_name_countedEntities]
  exact (keeps_keptEntities diagram.body).unique

theorem countedEntities_sublist :
    (countedEntities diagram).Sublist ((entityDecls diagram.body).map (·.decl)) := by
  rw [countedEntities_eq]
  exact (keeps_keptEntities diagram.body).inOrder.map _

/-- Of a name that is declared more than once the first declaration counts. -/
theorem find?_countedEntities (name : String) : (countedEntities diagram).find? (·.name = name) =
    ((entityDecls diagram.body).map (·.decl)).find? (·.name = name) := by
  have under (list : List (Placed EntityDecl)) : (list.map (·.decl)).find? (·.name = name) =
      (list.find? (·.decl.name = name)).map (·.decl) := List.find?_map
  rw [countedEntities_eq, under, under, (keeps_keptEntities diagram.body).first]

end Counted

end Analysis

end ArchDiagram
