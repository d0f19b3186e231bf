/-!
Circular inheritance. Entities are nodes and the names that they extend are links, of which only
those to declared entities count. A walk goes down the links with its path at hand and ends as soon
as it comes back to it. Names that it left behind without that are settled: they are remembered from
one walk to the next, so that shared ancestors are searched once.
-/

namespace ArchDiagram.Analysis

/-- Declared names in order, each with the names that it extends. -/
abbrev Ancestry := List (String × List String)

/-- A name on the path of a walk, and which of its parents are still to be looked at. -/
structure Frame where
  name : String
  waiting : List String
deriving DecidableEq, Repr

/-- A walk on its way. The latest name of the path stands first. -/
structure Walk where
  path : List Frame
  settled : List String
deriving DecidableEq, Repr

/-- How a walk ended: whether it came back to its own path, and what is settled by then. -/
structure Verdict where
  circular : Bool
  settled : List String
deriving DecidableEq, Repr

inductive Look
  | further (walk : Walk)
  | ended (verdict : Verdict)
deriving DecidableEq, Repr

namespace Walk

/-- Looks at one parent of the latest name. A name without a parent left is settled. -/
def look (ancestry : Ancestry) : Walk → Look
  | ⟨[], settled⟩ => .ended ⟨false, settled⟩
  | ⟨⟨name, []⟩ :: below, settled⟩ => .further ⟨below, name :: settled⟩
  | ⟨⟨name, parent :: waiting⟩ :: below, settled⟩ =>
    let rest := ⟨name, waiting⟩ :: below
    if parent ∈ rest.map Frame.name then .ended ⟨true, settled⟩
    else if parent ∈ settled then .further ⟨rest, settled⟩
    else match ancestry.lookup parent with
      | none => .further ⟨rest, settled⟩
      | some parents => .further ⟨⟨parent, parents⟩ :: rest, settled⟩

/-- What the names with a given property are worth: a look for each parent, and one more. -/
def looksAt (counts : String → Bool) : Ancestry → Nat
  | [] => 0
  | (name, parents) :: rest =>
    (if counts name then parents.length + 1 else 0) + looksAt counts rest

/-- Whether a walk may still come to a name. -/
def isAhead (walk : Walk) (name : String) : Bool :=
  name ∉ walk.path.map Frame.name && name ∉ walk.settled

/-- No walk takes more looks than these, since a name comes onto the path once. -/
def remaining (ancestry : Ancestry) (walk : Walk) : Nat :=
  walk.path.foldr (·.waiting.length + 1 + ·) 0 + looksAt walk.isAhead ancestry

theorem looksAt_cons_le {fewer more : String → Bool} {name : String} {parents : List String}
    {rest : Ancestry} {extra : Nat} (imp : fewer name = true → more name = true)
    (tail : looksAt fewer rest + extra ≤ looksAt more rest) :
    looksAt fewer ((name, parents) :: rest) + extra ≤ looksAt more ((name, parents) :: rest) := by
  rw [looksAt, looksAt]
  by_cases counted : fewer name = true
  · rw [if_pos counted, if_pos (imp counted)]
    omega
  · rw [if_neg counted]
    omega

theorem looksAt_mono {fewer more : String → Bool} (ancestry : Ancestry)
    (imp : ∀ name, fewer name = true → more name = true) :
    looksAt fewer ancestry ≤ looksAt more ancestry := by
  induction ancestry with
  | nil => exact Nat.le_refl _
  | cons entry rest ih =>
    have tail : looksAt fewer rest + 0 ≤ looksAt more rest := ih
    exact looksAt_cons_le (imp entry.1) tail

theorem looksAt_drop {fewer more : String → Bool} {ancestry : Ancestry} {name : String}
    {parents : List String} (declared : ancestry.lookup name = some parents)
    (imp : ∀ other, fewer other = true → more other = true)
    (dropped : fewer name = false) (counted : more name = true) :
    looksAt fewer ancestry + (parents.length + 1) ≤ looksAt more ancestry := by
  induction ancestry with
  | nil => cases declared
  | cons entry rest ih =>
    obtain ⟨key, own⟩ := entry
    rw [List.lookup_cons] at declared
    by_cases same : name = key
    · subst same
      have tail := looksAt_mono rest imp
      obtain rfl : own = parents := by simpa using declared
      rw [looksAt, looksAt, dropped, counted, if_neg Bool.false_ne_true, if_pos rfl]
      omega
    · exact looksAt_cons_le (imp key) (ih (by rwa [beq_eq_false_iff_ne.2 same] at declared))

theorem remaining_lt {ancestry : Ancestry} {walk next : Walk}
    (further : walk.look ancestry = .further next) :
    next.remaining ancestry < walk.remaining ancestry := by
  revert further
  fun_cases look ancestry walk with
  | case1 => simp
  | case2 name below settled =>
    rintro ⟨⟩
    have ahead : looksAt (isAhead ⟨below, name :: settled⟩) ancestry ≤
        looksAt (isAhead ⟨⟨name, []⟩ :: below, settled⟩) ancestry :=
      looksAt_mono ancestry (by simp +contextual [isAhead])
    simp only [remaining, List.foldr_cons, List.length_nil]
    omega
  | case3 => simp
  | case4 name parent waiting below settled rest =>
    rintro ⟨⟩
    have same : isAhead ⟨rest, settled⟩ = isAhead ⟨⟨name, parent :: waiting⟩ :: below, settled⟩ := rfl
    simp only [remaining, same, rest, List.foldr_cons, List.length_cons]
    omega
  | case5 name parent waiting below settled rest =>
    rintro ⟨⟩
    have same : isAhead ⟨rest, settled⟩ = isAhead ⟨⟨name, parent :: waiting⟩ :: below, settled⟩ := rfl
    simp only [remaining, same, rest, List.foldr_cons, List.length_cons]
    omega
  -- A parent that comes onto the path is no longer ahead: its own looks are paid from the sum.
  | case6 name parent waiting below settled rest fresh unsettled parents declared =>
    rintro ⟨⟩
    have paid : looksAt (isAhead ⟨⟨parent, parents⟩ :: rest, settled⟩) ancestry +
        (parents.length + 1) ≤
        looksAt (isAhead ⟨⟨name, parent :: waiting⟩ :: below, settled⟩) ancestry :=
      looksAt_drop declared (by simp +contextual [isAhead, rest]) (by simp [isAhead])
        (by simpa [isAhead, rest, unsettled] using fresh)
    simp only [remaining, rest, List.foldr_cons, List.length_cons] at paid ⊢
    omega

def run (ancestry : Ancestry) (walk : Walk) : Verdict :=
  match _ : walk.look ancestry with
  | .further next => run ancestry next
  | .ended verdict => verdict
termination_by walk.remaining ancestry
decreasing_by exact remaining_lt ‹_›

end Walk

def walkFrom (ancestry : Ancestry) (settled : List String) (name : String) : Verdict :=
  if name ∈ settled then ⟨false, settled⟩
  else Walk.run ancestry ⟨[⟨name, (ancestry.lookup name).getD []⟩], settled⟩

/-- The names to report among the given ones: those above something circular that are no parent of
a name reported before. -/
def circularFrom (ancestry : Ancestry) : (skipped settled : List String) → Ancestry → List String
  | _, _, [] => []
  | skipped, settled, (name, parents) :: rest =>
    if name ∈ skipped then circularFrom ancestry skipped settled rest
    else
      let verdict := walkFrom ancestry settled name
      if verdict.circular then
        name :: circularFrom ancestry (name :: parents ++ skipped) verdict.settled rest
      else circularFrom ancestry skipped verdict.settled rest

def circularNames (ancestry : Ancestry) : List String := circularFrom ancestry [] [] ancestry

end ArchDiagram.Analysis
