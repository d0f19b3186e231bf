import ArchDiagram.Proofs.Sites

/-!
Maps told by the writes that made them. Wherever the writes stand, a map that performs them in the
order of their sites has each key at the place of its first write, with the value of its last.
-/

namespace ArchDiagram

namespace OrderedMap

open Analysis (firstsBy firstsBy_concat mem_map_firstsBy)

variable {α β : Type}

theorem lookup_cons_eq (entry : String × α) (rest : List (String × α)) (wanted : String) :
    (entry :: rest).lookup wanted =
      if wanted = entry.1 then some entry.2 else rest.lookup wanted := by
  rw [List.lookup_cons]
  by_cases here : wanted = entry.1
  · rw [if_pos here, beq_iff_eq.2 here]
  · rw [if_neg here, beq_eq_false_iff_ne.2 here]

theorem get?_put (map : OrderedMap α) (key wanted : String) (value : α) :
    (map.put key value).get? wanted = if wanted = key then some value else map.get? wanted := by
  obtain ⟨entries⟩ := map
  change (putEntry key value entries).lookup wanted =
    if wanted = key then some value else entries.lookup wanted
  induction entries with
  | nil => exact lookup_cons_eq ..
  | cons entry rest ih =>
    rw [putEntry]
    by_cases here : entry.1 = key
    · rw [if_pos here, lookup_cons_eq, lookup_cons_eq, here]
      by_cases same : wanted = key
      · rw [if_pos same, if_pos same]
      · rw [if_neg same, if_neg same, if_neg same]
    · rw [if_neg here, lookup_cons_eq, lookup_cons_eq, ih]
      by_cases found : wanted = entry.1
      · rw [if_pos found, if_neg (found ▸ here), if_pos found]
      · rw [if_neg found, if_neg found]

theorem keys_put (map : OrderedMap α) (key : String) (value : α) :
    (map.put key value).keys = if key ∈ map.keys then map.keys else map.keys ++ [key] := by
  obtain ⟨entries⟩ := map
  change (putEntry key value entries).map Prod.fst =
    if key ∈ entries.map Prod.fst then entries.map Prod.fst else entries.map Prod.fst ++ [key]
  induction entries with
  | nil => rfl
  | cons entry rest ih =>
    rw [putEntry, List.map_cons]
    by_cases here : entry.1 = key
    · simp [here]
    · rw [if_neg here, List.map_cons, ih]
      have front : key ∈ entry.1 :: rest.map Prod.fst ↔ key ∈ rest.map Prod.fst :=
        List.mem_cons.trans (or_iff_right (Ne.symm here))
      by_cases known : key ∈ rest.map Prod.fst
      · rw [if_pos known, if_pos (front.2 known)]
      · rw [if_neg known, if_neg (mt front.1 known), List.cons_append]

theorem mem_keys_put (map : OrderedMap α) (key wanted : String) (value : α) :
    wanted ∈ (map.put key value).keys ↔ wanted ∈ map.keys ∨ wanted = key := by
  rw [keys_put]
  by_cases old : key ∈ map.keys
  · rw [if_pos old]
    exact ⟨.inl, fun found => found.elim id fun same => same ▸ old⟩
  · rw [if_neg old, List.mem_append, List.mem_singleton]

theorem get?_mapValues (f : String → α → β) (map : OrderedMap α) (key : String) :
    (map.mapValues f).get? key = (map.get? key).map (f key) := by
  obtain ⟨entries⟩ := map
  change (entries.map fun entry => (entry.1, f entry.1 entry.2)).lookup key =
    (entries.lookup key).map (f key)
  induction entries with
  | nil => rfl
  | cons entry rest ih =>
    rw [List.map_cons, lookup_cons_eq, lookup_cons_eq, ih]
    by_cases here : key = entry.1
    · rw [if_pos here, if_pos here, here]
      rfl
    · rw [if_neg here, if_neg here]

theorem lookup_eq_find? {name : α → String} {entries : List (String × α)}
    (keyed : ∀ entry ∈ entries, entry.1 = name entry.2) (wanted : String) :
    entries.lookup wanted = (entries.map Prod.snd).find? (name · = wanted) := by
  induction entries with
  | nil => rfl
  | cons entry rest ih =>
    rw [lookup_cons_eq, List.map_cons, List.find?_cons, keyed entry List.mem_cons_self,
      ih fun other inside => keyed other (List.mem_cons_of_mem _ inside)]
    by_cases here : name entry.2 = wanted
    · simp [here]
    · simp [here, Ne.symm here]

theorem mapValues_congr {f g : String → α → β} {map : OrderedMap α}
    (same : ∀ key ∈ map.keys, f key = g key) : map.mapValues f = map.mapValues g := by
  refine congrArg OrderedMap.mk (List.map_congr_left fun entry inside => ?_)
  rw [same entry.1 (List.mem_map_of_mem inside)]

theorem eq_of_keys {map other : OrderedMap α} (distinct : map.keys.Nodup)
    (keys : map.keys = other.keys) (values : ∀ key, map.get? key = other.get? key) :
    map = other := by
  obtain ⟨entries⟩ := map
  obtain ⟨others⟩ := other
  refine congrArg OrderedMap.mk ?_
  change (entries.map Prod.fst).Nodup at distinct
  change entries.map Prod.fst = others.map Prod.fst at keys
  change ∀ key, entries.lookup key = others.lookup key at values
  induction entries generalizing others with
  | nil => exact (List.map_eq_nil_iff.1 keys.symm).symm
  | cons entry rest ih =>
    cases others with
    | nil => exact absurd keys (List.cons_ne_nil _ _)
    | cons front more =>
      rw [List.map_cons, List.map_cons, List.cons.injEq] at keys
      rw [List.map_cons, List.nodup_cons] at distinct
      have here : entry = front := by
        have value := values entry.1
        rw [lookup_cons_eq, lookup_cons_eq, if_pos rfl, if_pos keys.1] at value
        exact Prod.ext keys.1 (Option.some.inj value)
      -- A key of the first entry is looked up nowhere else, so the rests agree on it as well.
      have behind : rest = more := by
        refine ih more distinct.2 keys.2 fun key => ?_
        by_cases first : key = entry.1
        · have absent {list : List (String × α)} (free : entry.1 ∉ list.map Prod.fst) :
              list.lookup key = none :=
            List.lookup_eq_none_iff.2 fun other inside => by
              rw [bne_iff_ne, first]
              exact fun same => free (same ▸ List.mem_map_of_mem inside)
          rw [absent distinct.1, absent (keys.2 ▸ distinct.1)]
        · have value := values key
          rwa [lookup_cons_eq, lookup_cons_eq, if_neg first, if_neg (keys.1 ▸ first)] at value
      rw [here, behind]

theorem putAll_append (map : OrderedMap α) (writes more : List (String × α)) :
    map.putAll (writes ++ more) = (map.putAll writes).putAll more :=
  List.foldl_append

theorem ofList_concat (writes : List (String × α)) (write : String × α) :
    ofList (writes ++ [write]) = (ofList writes).put write.1 write.2 :=
  List.foldl_append

theorem keys_ofList (writes : List (String × α)) :
    (ofList writes).keys = (firstsBy Prod.fst writes).map Prod.fst := by
  -- From the back, since the last write is performed on the map of the ones before it.
  induction writes using List.reverseRecOn with
  | nil => rfl
  | append_singleton writes write ih =>
    rw [ofList_concat, keys_put, firstsBy_concat, ih]
    by_cases known : write.1 ∈ writes.map Prod.fst
    · rw [if_pos ((mem_map_firstsBy ..).2 known), if_pos known]
    · rw [if_neg (mt (mem_map_firstsBy ..).1 known), if_neg known, List.map_append,
        List.map_singleton]

theorem get?_ofList (writes : List (String × α)) (key : String) :
    (ofList writes).get? key = ((writes.filter (·.1 = key)).map Prod.snd).getLast? := by
  induction writes using List.reverseRecOn with
  | nil => rfl
  | append_singleton writes write ih =>
    rw [ofList_concat, get?_put, ih, List.filter_append, List.map_append]
    by_cases last : key = write.1
    · simp [last]
    · simp [last, Ne.symm last]

theorem put_put (map : OrderedMap α) (key : String) (old value : α) :
    (map.put key old).put key value = map.put key value := by
  obtain ⟨entries⟩ := map
  refine congrArg OrderedMap.mk ?_
  change putEntry key value (putEntry key old entries) = putEntry key value entries
  induction entries with
  | nil => simp [putEntry]
  | cons entry rest ih =>
    by_cases here : entry.1 = key
    · simp [putEntry, here]
    · simp [putEntry, here, ih]

theorem put_comm {map : OrderedMap α} {key other : String} (known : key ∈ map.keys)
    (apart : other ≠ key) (value more : α) :
    (map.put key value).put other more = (map.put other more).put key value := by
  obtain ⟨entries⟩ := map
  refine congrArg OrderedMap.mk ?_
  change key ∈ entries.map Prod.fst at known
  change putEntry other more (putEntry key value entries) =
    putEntry key value (putEntry other more entries)
  -- Induction on the entries: the first one with either key is as far as it goes.
  induction entries with
  | nil => exact absurd known List.not_mem_nil
  | cons entry rest ih =>
    by_cases here : entry.1 = key
    · have elsewhere : ¬ key = other := Ne.symm apart
      simp [putEntry, here, elsewhere]
    · by_cases there : entry.1 = other
      · simp [putEntry, there, apart]
      · have behind : key ∈ rest.map Prod.fst :=
          (List.mem_cons.1 known).resolve_left (Ne.symm here)
        simp [putEntry, here, there, ih behind]

theorem putAll_put_comm {map : OrderedMap α} {key : String} {writes : List (String × α)}
    (known : key ∈ map.keys) (apart : key ∉ writes.map Prod.fst) (value : α) :
    (map.put key value).putAll writes = (map.putAll writes).put key value := by
  induction writes generalizing map with
  | nil => rfl
  | cons write rest ih =>
    rw [List.map_cons, List.mem_cons, not_or] at apart
    change ((map.put key value).put write.1 write.2).putAll rest =
      ((map.put write.1 write.2).putAll rest).put key value
    rw [put_comm known (Ne.symm apart.1), ih ((mem_keys_put ..).2 (.inl known)) apart.2]

theorem putAll_put {added : OrderedMap α} (distinct : added.keys.Nodup) (map : OrderedMap α)
    (key : String) (value : α) :
    map.putAll (added.put key value).entries = (map.putAll added.entries).put key value := by
  obtain ⟨entries⟩ := added
  change (entries.map Prod.fst).Nodup at distinct
  change map.putAll (putEntry key value entries) = (map.putAll entries).put key value
  induction entries generalizing map with
  | nil => rfl
  | cons entry rest ih =>
    rw [List.map_cons, List.nodup_cons] at distinct
    rw [putEntry]
    by_cases here : entry.1 = key
    · have placed : key ∈ (map.put key entry.2).keys := (mem_keys_put ..).2 (.inr rfl)
      rw [if_pos here]
      change (map.put key value).putAll rest = ((map.put entry.1 entry.2).putAll rest).put key value
      rw [here, ← putAll_put_comm placed (here ▸ distinct.1), put_put]
    · rw [if_neg here]
      exact ih (map.put entry.1 entry.2) distinct.2

theorem nodup_keys_ofList (writes : List (String × α)) : (ofList writes).keys.Nodup := by
  induction writes using List.reverseRecOn with
  | nil => exact .nil
  | append_singleton writes write ih =>
    rw [ofList_concat, keys_put]
    by_cases old : write.1 ∈ (ofList writes).keys
    · rwa [if_pos old]
    · rw [if_neg old, ← List.concat_eq_append]
      exact ih.concat old

theorem putAll_ofList (map : OrderedMap α) (writes : List (String × α)) :
    map.putAll (ofList writes).entries = map.putAll writes := by
  induction writes using List.reverseRecOn with
  | nil => rfl
  | append_singleton writes write ih =>
    rw [ofList_concat, putAll_put (nodup_keys_ofList writes), ih, putAll_append]
    rfl

end OrderedMap

namespace Analysis

variable {Site α : Type} [Preorder Site]

/-- What a map holds after writes that stand at sites: each key at the place of its first write,
with the value of its last one. -/
structure Written (writes : Site → String × α → Prop) (map : OrderedMap α) : Prop where
  keys : Enumerates (fun site key => ∃ value, writes site (key, value) ∧
    ∀ earlier < site, ∀ other, ¬ writes earlier (key, other)) map.keys
  values : ∀ key, Latest (fun site value => writes site (key, value)) (map.get? key)

theorem Enumerates.written {writes : Site → String × α → Prop} {list : List (String × α)}
    (listed : Enumerates writes list) : Written writes (.ofList list) where
  keys := by
    rw [OrderedMap.keys_ofList]
    refine ((listed.firstsBy Prod.fst).map Prod.fst).congr fun site key => ?_
    constructor
    · rintro ⟨⟨_, value⟩, ⟨there, first⟩, rfl⟩
      exact ⟨value, there, fun earlier less other stands => first earlier less _ stands rfl⟩
    · rintro ⟨value, there, first⟩
      refine ⟨(key, value), ⟨there, fun earlier less write stands same => ?_⟩, rfl⟩
      subst same
      exact first earlier less write.2 stands
  values key := by
    rw [OrderedMap.get?_ofList]
    refine (((listed.filter _).map Prod.snd).congr fun site value => ?_).latest
    constructor
    · rintro ⟨⟨other, _⟩, ⟨there, same⟩, rfl⟩
      rwa [← of_decide_eq_true same]
    · exact fun there => ⟨(key, value), ⟨there, decide_eq_true rfl⟩, rfl⟩

theorem Written.nodup_keys {writes : Site → String × α → Prop} {map : OrderedMap α}
    (written : Written writes map) : map.keys.Nodup := by
  obtain ⟨sited, keys, ascending, mem⟩ := written.keys
  rw [← keys]
  refine List.pairwise_map.2 (ascending.imp_of_mem fun {before after} inside later less same => ?_)
  obtain ⟨value, there, -⟩ := (mem before.1 before.2).1 inside
  obtain ⟨-, -, first⟩ := (mem after.1 after.2).1 later
  exact first before.1 less value (same ▸ there)

theorem Written.unique {Site : Type} [LinearOrder Site] {writes : Site → String × α → Prop}
    {map other : OrderedMap α}
    (single : ∀ site write more, writes site write → writes site more → write = more)
    (written : Written writes map) (again : Written writes other) : map = other := by
  refine OrderedMap.eq_of_keys written.nodup_keys (written.keys.unique again.keys) fun key => ?_
  refine Latest.unique (fun site x y here there => ?_) (written.values key) (again.values key)
  exact congrArg Prod.snd (single site (key, x) (key, y) here there)

theorem Written.eq_empty {writes : Site → String × α → Prop} {map : OrderedMap α}
    (written : Written writes map) (none_ : ∀ site write, ¬ writes site write) : map = .empty := by
  have keys : map.keys = [] :=
    written.keys.unique (.nil fun site key ⟨value, there, _⟩ => none_ site (key, value) there)
  exact congrArg OrderedMap.mk (List.map_eq_nil_iff.1 keys)

end Analysis

end ArchDiagram
