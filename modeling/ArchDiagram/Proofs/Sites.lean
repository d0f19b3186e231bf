import ArchDiagram.Proofs.Outline
import Mathlib.Data.Prod.Lex
import Mathlib.Data.List.Lex
import Mathlib.Order.Lattice.Nat

/-!
Lists in the order of sites. What stands where is a relation between sites and things. A list that
has the things in the order of their sites, each as often as it stands somewhere, is the only one
that does, so it is told by the relation alone.
-/

namespace ArchDiagram.Analysis

section Lists

variable {Site Part α β : Type} [Preorder Site] [Preorder Part]

/-- A list has the things that stand at some site, in the order of the sites. -/
def Enumerates (stands : Site → α → Prop) (list : List α) : Prop :=
  ∃ sited : List (Site × α), sited.map Prod.snd = list ∧ sited.Pairwise (·.1 < ·.1) ∧
    ∀ site x, (site, x) ∈ sited ↔ stands site x

namespace Enumerates

variable {stands other : Site → α → Prop} {list more : List α}

theorem congr (listed : Enumerates stands list) (same : ∀ site x, stands site x ↔ other site x) :
    Enumerates other list := by
  obtain ⟨sited, things, ascending, mem⟩ := listed
  exact ⟨sited, things, ascending, fun site x => (mem site x).trans (same site x)⟩

theorem unique (listed : Enumerates stands list) (again : Enumerates stands more) :
    list = more := by
  obtain ⟨sited, rfl, ascending, mem⟩ := listed
  obtain ⟨sited', rfl, ascending', mem'⟩ := again
  have distinct {sited : List (Site × α)} (ascending : sited.Pairwise (·.1 < ·.1)) :
      sited.Nodup :=
    ascending.imp fun before same => absurd (same ▸ before) (lt_irrefl _)
  -- As sets both are the relation, and the order of the sites leaves one arrangement.
  have perm : sited.Perm sited' := by
    rw [List.perm_ext_iff_of_nodup (distinct ascending) (distinct ascending')]
    intro place
    rw [mem, mem']
  rw [perm.eq_of_pairwise (fun _ _ _ _ before after => absurd after before.asymm)
    ascending ascending']

theorem mem_iff (listed : Enumerates stands list) (x : α) :
    x ∈ list ↔ ∃ site, stands site x := by
  obtain ⟨sited, rfl, -, mem⟩ := listed
  simp [mem]

theorem mem_iff_of_reverse (listed : Enumerates stands list.reverse) (x : α) :
    x ∈ list ↔ ∃ site, stands site x := by
  rw [← List.mem_reverse, listed.mem_iff]

theorem nil (none_ : ∀ site x, ¬ stands site x) : Enumerates stands [] :=
  ⟨[], rfl, .nil, by simpa using none_⟩

theorem single (p : Prop) [Decidable p] (site : Site) (x : α) :
    Enumerates (fun place y => p ∧ place = site ∧ y = x) (if p then [x] else []) := by
  by_cases holds : p
  · rw [if_pos holds]
    exact ⟨[(site, x)], rfl, List.pairwise_singleton .., by simp [holds]⟩
  · rw [if_neg holds]
    exact .nil (by simp [holds])

theorem append (front : Enumerates stands list) (back : Enumerates other more)
    (apart : ∀ site x later y, stands site x → other later y → site < later) :
    Enumerates (fun site x => stands site x ∨ other site x) (list ++ more) := by
  obtain ⟨sited, rfl, ascending, mem⟩ := front
  obtain ⟨sited', rfl, ascending', mem'⟩ := back
  refine ⟨sited ++ sited', List.map_append, ?_, ?_⟩
  · rw [List.pairwise_append]
    exact ⟨ascending, ascending', fun a first b second =>
      apart a.1 a.2 b.1 b.2 ((mem _ _).1 first) ((mem' _ _).1 second)⟩
  · intro site x
    rw [List.mem_append, mem, mem']

theorem at_sites (listed : Enumerates stands list) (place : Site → Part)
    (mono : ∀ site x later y, stands site x → stands later y → site < later →
      place site < place later) :
    Enumerates (fun part x => ∃ site, part = place site ∧ stands site x) list := by
  obtain ⟨sited, rfl, ascending, mem⟩ := listed
  refine ⟨sited.map fun (site, x) => (place site, x), by simp, ?_, ?_⟩
  · rw [List.pairwise_map]
    exact ascending.imp_of_mem fun first second before =>
      mono _ _ _ _ ((mem _ _).1 first) ((mem _ _).1 second) before
  · intro part x
    simp only [List.mem_map, Prod.exists, Prod.mk.injEq, mem]
    constructor
    · rintro ⟨site, _, there, rfl, rfl⟩
      exact ⟨site, rfl, there⟩
    · rintro ⟨site, rfl, there⟩
      exact ⟨site, x, there, rfl, rfl⟩

theorem filterMap (listed : Enumerates stands list) (choose : α → Option β) :
    Enumerates (fun site y => ∃ x, stands site x ∧ choose x = some y) (list.filterMap choose) := by
  obtain ⟨sited, rfl, ascending, mem⟩ := listed
  refine ⟨sited.filterMap fun (site, x) => (choose x).map (site, ·), ?_, ?_, ?_⟩
  · rw [List.map_filterMap, List.filterMap_map]
    refine congrArg (List.filterMap · sited) (funext fun (site, x) => ?_)
    simp
  · rw [List.pairwise_filterMap]
    refine ascending.imp fun before _ first _ second => ?_
    obtain ⟨_, -, rfl⟩ := Option.map_eq_some_iff.1 first
    obtain ⟨_, -, rfl⟩ := Option.map_eq_some_iff.1 second
    exact before
  · intro site y
    simp [mem]

theorem map (listed : Enumerates stands list) (f : α → β) :
    Enumerates (fun site y => ∃ x, stands site x ∧ f x = y) (list.map f) := by
  rw [← List.filterMap_eq_map]
  exact (listed.filterMap _).congr fun site y => by simp

theorem filter (listed : Enumerates stands list) (p : α → Bool) :
    Enumerates (fun site x => stands site x ∧ p x = true) (list.filter p) := by
  rw [← List.filterMap_eq_filter]
  exact (listed.filterMap _).congr fun site x => by simp [Option.guard_eq_some_iff]

theorem flatMap (listed : Enumerates stands list) (inner : α → List β)
    (found : Site → α → Part → β → Prop)
    (each : ∀ site x, stands site x → Enumerates (found site x) (inner x)) :
    Enumerates (fun (place : Site ×ₗ Part) y =>
        ∃ x, stands (ofLex place).1 x ∧ found (ofLex place).1 x (ofLex place).2 y)
      (list.flatMap inner) := by
  obtain ⟨sited, rfl, ascending, mem⟩ := listed
  simp only [← mem] at each ⊢
  clear mem
  -- By induction on the things: what is found at the first one stands before all the rest.
  induction sited with
  | nil => exact .nil (by simp)
  | cons here sited ih =>
    obtain ⟨site, x⟩ := here
    rw [List.pairwise_cons] at ascending
    obtain ⟨later, ascending⟩ := ascending
    have first := (each site x List.mem_cons_self).at_sites (fun part => toLex (site, part))
      (fun _ _ _ _ _ _ less => Prod.Lex.toLex_lt_toLex.2 (.inr ⟨rfl, less⟩))
    have rest := ih ascending fun site x inside => each site x (List.mem_cons_of_mem _ inside)
    refine (first.append rest ?_).congr ?_
    · rintro _ _ place y ⟨part, rfl, -⟩ ⟨z, inside, -⟩
      exact Prod.Lex.lt_iff.2 (.inl (later _ inside))
    · intro place y
      simp only [List.mem_cons, Prod.mk.injEq]
      constructor
      · rintro (⟨part, rfl, shown⟩ | ⟨z, inside, shown⟩)
        · exact ⟨x, .inl ⟨rfl, rfl⟩, shown⟩
        · exact ⟨z, .inr inside, shown⟩
      · rintro ⟨z, ⟨rfl, rfl⟩ | inside, shown⟩
        · exact .inl ⟨_, rfl, shown⟩
        · exact .inr ⟨z, inside, shown⟩

theorem front {before after : List (Site × α)} {site : Site} {x : α}
    (ascending : (before ++ (site, x) :: after).Pairwise (·.1 < ·.1))
    (mem : ∀ other y, (other, y) ∈ before ++ (site, x) :: after ↔ stands other y) :
    Enumerates (fun other y => other < site ∧ stands other y) (before.map Prod.snd) := by
  rw [List.pairwise_append, List.pairwise_cons] at ascending
  obtain ⟨ascending, ⟨later, -⟩, sooner⟩ := ascending
  refine ⟨before, rfl, ascending, fun other y => ?_⟩
  constructor
  · intro inside
    exact ⟨sooner _ inside _ List.mem_cons_self, (mem other y).1 (List.mem_append_left _ inside)⟩
  · rintro ⟨less, stands⟩
    rcases List.mem_append.1 ((mem other y).2 stands) with inside | inside
    · exact inside
    · rcases List.mem_cons.1 inside with same | inside
      · cases same
        exact absurd less (lt_irrefl _)
      · exact absurd (later _ inside) less.asymm

theorem find?_eq (listed : Enumerates stands list) {fits : α → Bool} {site : Site} {x : α}
    (there : stands site x) (fit : fits x = true)
    (first : ∀ earlier < site, ∀ y, stands earlier y → fits y = false) :
    list.find? fits = some x := by
  obtain ⟨sited, rfl, ascending, mem⟩ := listed
  obtain ⟨before, after, rfl⟩ := List.append_of_mem ((mem site x).2 there)
  have sooner := front ascending mem
  have none_ : (before.map Prod.snd).find? fits = none := by
    rw [List.find?_eq_none]
    intro y inside
    obtain ⟨earlier, less, stands⟩ := (sooner.mem_iff y).1 inside
    rw [first earlier less y stands]
    exact Bool.false_ne_true
  rw [List.map_append, List.find?_append, none_, Option.none_or, List.map_cons,
    List.find?_cons_of_pos fit]

theorem exists_earlier (listed : Enumerates stands list) {site : Site} {x : α}
    (there : stands site x) :
    ∃ earlier : List α, Enumerates (fun other y => other < site ∧ stands other y) earlier.reverse := by
  obtain ⟨sited, rfl, ascending, mem⟩ := listed
  obtain ⟨before, after, rfl⟩ := List.append_of_mem ((mem site x).2 there)
  refine ⟨(before.map Prod.snd).reverse, ?_⟩
  rw [List.reverse_reverse]
  exact front ascending mem

theorem with_earlier (listed : Enumerates stands list) :
    Enumerates (fun site (p : List α × α) => stands site p.2 ∧
        Enumerates (fun other y => other < site ∧ stands other y) p.1.reverse)
      (withEarlier list) := by
  obtain ⟨sited, rfl, ascending, mem⟩ := listed
  refine ⟨(withEarlier sited).map fun p => (p.2.1, p.1.map Prod.snd, p.2.2), ?_, ?_, ?_⟩
  · rw [withEarlier_map, List.map_map]
    rfl
  · rw [← map_snd_withEarlier sited, List.pairwise_map] at ascending
    exact List.pairwise_map.2 ascending
  · rintro site ⟨earlier, x⟩
    rw [List.mem_map]
    constructor
    · rintro ⟨⟨_, here⟩, inside, same⟩
      cases same
      obtain ⟨before, after, rfl, rfl⟩ := mem_withEarlier.1 inside
      refine ⟨(mem here.1 here.2).1 (by simp), ?_⟩
      rw [List.map_reverse, List.reverse_reverse]
      exact front ascending mem
    · rintro ⟨there, sooner⟩
      -- What is listed before a site is told by the site, so both lists are the same.
      obtain ⟨before, after, rfl⟩ := List.append_of_mem ((mem site x).2 there)
      refine ⟨(before.reverse, site, x), mem_withEarlier.2 ⟨before, after, rfl, rfl⟩, ?_⟩
      rw [List.map_reverse, (front ascending mem).unique sooner, List.reverse_reverse]

theorem flatMap_withEarlier (listed : Enumerates stands list) (inner : List α × α → List β)
    (found : Site → α → Part → β → Prop)
    (each : ∀ site x earlier, stands site x →
      Enumerates (fun other y => other < site ∧ stands other y) earlier.reverse →
      Enumerates (found site x) (inner (earlier, x))) :
    Enumerates (fun (place : Site ×ₗ Part) y =>
        ∃ x, stands (ofLex place).1 x ∧ found (ofLex place).1 x (ofLex place).2 y)
      ((withEarlier list).flatMap inner) := by
  have looked := listed.with_earlier.flatMap inner (fun site p => found site p.2)
    fun site p there => each site p.2 p.1 there.1 there.2
  refine looked.congr fun place y => ?_
  constructor
  · rintro ⟨p, ⟨there, -⟩, shown⟩
    exact ⟨p.2, there, shown⟩
  · rintro ⟨x, there, shown⟩
    obtain ⟨earlier, sooner⟩ := listed.exists_earlier there
    exact ⟨(earlier, x), ⟨there, sooner⟩, shown⟩

end Enumerates

/-- The thing at the last site where one stands, or none where nothing stands. -/
def Latest (stands : Site → α → Prop) : Option α → Prop
  | none => ∀ site x, ¬ stands site x
  | some x => ∃ site, stands site x ∧ ∀ later y, stands later y → ¬ site < later

theorem Latest.eq_none {stands : Site → α → Prop} {found : Option α} (latest : Latest stands found)
    (none_ : ∀ site x, ¬ stands site x) : found = none := by
  cases found with
  | none => rfl
  | some x =>
    obtain ⟨site, there, -⟩ := latest
    exact absurd there (none_ site x)

/-- Where one thing stands at each site and sites follow each other, there is one last thing. -/
theorem Latest.unique {Site : Type} [LinearOrder Site] {stands : Site → α → Prop}
    {found again : Option α}
    (single : ∀ site x y, stands site x → stands site y → x = y) (latest : Latest stands found)
    (other : Latest stands again) : found = again := by
  cases found with
  | none => exact (other.eq_none latest).symm
  | some x =>
    cases again with
    | none => exact latest.eq_none other
    | some y =>
      obtain ⟨site, here, last⟩ := latest
      obtain ⟨place, there, final⟩ := other
      have same : site = place :=
        le_antisymm (not_lt.1 (final site x here)) (not_lt.1 (last place y there))
      subst same
      rw [single site x y here there]

theorem Enumerates.latest {stands : Site → α → Prop} {list : List α}
    (listed : Enumerates stands list) : Latest stands list.getLast? := by
  obtain ⟨sited, rfl, ascending, mem⟩ := listed
  cases sited using List.reverseRecOn with
  | nil =>
    intro site x there
    exact absurd ((mem site x).2 there) List.not_mem_nil
  | append_singleton before last =>
    obtain ⟨site, x⟩ := last
    rw [List.map_append, List.map_singleton, List.getLast?_concat]
    rw [List.pairwise_append] at ascending
    refine ⟨site, (mem site x).1 (by simp), fun later y there less => ?_⟩
    rcases List.mem_append.1 ((mem later y).2 there) with inside | last
    · exact less.asymm (ascending.2.2 _ inside _ (List.mem_singleton_self _))
    · cases List.mem_singleton.1 last
      exact lt_irrefl _ less

theorem Enumerates.latest_where {stands : Site → α → Prop} {list : List α}
    (listed : Enumerates stands list) (fits : α → Prop) [DecidablePred fits] (f : α → β) :
    Latest (fun site y => ∃ x, stands site x ∧ fits x ∧ f x = y)
      ((list.filter (fits ·)).getLast?.map f) := by
  rw [← List.getLast?_map]
  refine (((listed.filter (fits ·)).map f).congr fun site y => ?_).latest
  simp only [decide_eq_true_eq, and_assoc]

section Firsts

variable [DecidableEq β] (key : α → β)

def unlessKeyed? (p : List α × α) : Option α :=
  if key p.2 ∈ p.1.map key then none else some p.2

def firstsBy (xs : List α) : List α := (withEarlier xs).filterMap (unlessKeyed? key)

theorem firstsBy_concat (xs : List α) (x : α) : firstsBy key (xs ++ [x]) =
    if key x ∈ xs.map key then firstsBy key xs else firstsBy key xs ++ [x] := by
  rw [firstsBy, withEarlier_concat, List.filterMap_append, ← firstsBy, List.filterMap_cons,
    List.filterMap_nil, unlessKeyed?, List.map_reverse]
  by_cases known : key x ∈ xs.map key
  · rw [if_pos (List.mem_reverse.2 known), if_pos known, List.append_nil]
  · rw [if_neg (mt List.mem_reverse.1 known), if_neg known]

theorem mem_map_firstsBy (xs : List α) (wanted : β) :
    wanted ∈ (firstsBy key xs).map key ↔ wanted ∈ xs.map key := by
  induction xs using List.reverseRecOn with
  | nil => rfl
  | append_singleton xs x ih =>
    rw [firstsBy_concat, List.map_append, List.mem_append, ← ih]
    by_cases known : key x ∈ xs.map key
    · rw [if_pos known]
      refine ⟨.inl, fun inside => inside.elim id fun last => ?_⟩
      obtain rfl := List.mem_singleton.1 last
      exact ih.2 known
    · rw [if_neg known, List.map_append, List.mem_append]

theorem Enumerates.firstsBy {stands : Site → α → Prop} {list : List α}
    (listed : Enumerates stands list) :
    Enumerates (fun site x => stands site x ∧
        ∀ earlier < site, ∀ y, stands earlier y → key y ≠ key x) (firstsBy key list) := by
  refine (listed.with_earlier.filterMap (unlessKeyed? key)).congr fun site x => ?_
  constructor
  · rintro ⟨⟨earlier, other⟩, ⟨there, sooner⟩, kept⟩
    obtain ⟨free, same⟩ := Option.ite_none_left_eq_some.1 kept
    cases same
    refine ⟨there, fun before less twin stands named => free ?_⟩
    rw [← named]
    exact List.mem_map_of_mem ((sooner.mem_iff_of_reverse twin).2 ⟨before, less, stands⟩)
  · rintro ⟨there, free⟩
    obtain ⟨earlier, sooner⟩ := listed.exists_earlier there
    refine ⟨(earlier, x), ⟨there, sooner⟩, if_neg fun taken => ?_⟩
    obtain ⟨twin, inside, named⟩ := List.mem_map.1 taken
    obtain ⟨before, less, stands⟩ := (sooner.mem_iff_of_reverse twin).1 inside
    exact free before less twin stands named

end Firsts

-- Lists as they are: the site of an element is its number. What is found at an element has a path
-- below this number.

theorem enumerates_list (xs : List α) : Enumerates (fun (i : Nat) (x : α) => xs[i]? = some x) xs := by
  refine ⟨xs.zipIdx.map Prod.swap, ?_, ?_, ?_⟩
  · rw [List.map_map]
    exact List.zipIdx_map_fst 0 xs
  · have numbers : (xs.zipIdx.map Prod.snd).Pairwise (· < ·) := by
      rw [List.zipIdx_map_snd]
      exact List.pairwise_lt_range'
    rw [List.pairwise_map] at numbers ⊢
    exact numbers
  · intro i x
    change _ ↔ xs[i]? = some x
    rw [← List.mk_mem_zipIdx_iff_getElem?]
    simp

theorem enumerates_take (xs : List α) (n : Nat) :
    Enumerates (fun (i : Nat) (x : α) => i < n ∧ xs[i]? = some x) (xs.take n) := by
  refine (enumerates_list (xs.take n)).congr fun i x => ?_
  rw [List.getElem?_take]
  by_cases less : i < n
  · simp [less]
  · simp [less]

theorem enumerates_numbered (xs : List α) (inner : List α × α → List β)
    (found : Nat → α → List Nat → β → Prop)
    (each : ∀ i x, xs[i]? = some x → Enumerates (found i x) (inner ((xs.take i).reverse, x))) :
    Enumerates (fun path y => ∃ i rest x, path = i :: rest ∧ xs[i]? = some x ∧ found i x rest y)
      ((withEarlier xs).flatMap inner) := by
  have looked := (enumerates_list xs).flatMap_withEarlier inner found
    fun i x earlier there before => by
      rw [List.reverse_eq_iff.1 (before.unique (enumerates_take xs i))]
      exact each i x there
  have paths := looked.at_sites (fun place => (ofLex place).1 :: (ofLex place).2)
    (fun _ _ _ _ _ _ less => List.cons_lt_cons_iff.2 (Prod.Lex.lt_iff.1 less))
  refine paths.congr fun path y => ?_
  constructor
  · rintro ⟨place, rfl, x, there, shown⟩
    exact ⟨_, _, x, rfl, there, shown⟩
  · rintro ⟨i, rest, x, rfl, there, shown⟩
    exact ⟨toLex (i, rest), rfl, x, there, shown⟩

end Lists

end ArchDiagram.Analysis
