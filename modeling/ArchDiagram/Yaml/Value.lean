import ArchDiagram.Yaml.Fault
import ArchDiagram.Yaml.Timestamp
import ArchDiagram.Decimal.Notation

/-!
Values of YAML documents. A collection can be part of itself, so what a value is made of is told one
step at a time: a value shows what it is at first sight, and its parts are values again.
-/

namespace ArchDiagram.Yaml

/-- A value without parts. Of the floating-point values that are no number, each one has an origin:
the node that it was computed for, or none if it is the one that has a name. -/
inductive Scalar
  | null
  | boolean (value : Bool)
  | integer (value : Int)
  | float (value : Decimal.Binary64)
  | notANumber (origin? : Option Nat)
  | text (value : Text.CodePoints)
  | timestamp (value : Timestamp)
  | bytes (value : List UInt8)
deriving Repr

namespace Scalar

/-- The integer that a value equals. Truth is one and falsehood zero. -/
def asInteger? : Scalar → Option Int
  | boolean value => some (if value then 1 else 0)
  | integer value => some value
  | float value => value.toInt?
  | _ => none

/-- Whether two values are the same key. Numbers are compared by what they count; what is no number
is the same only as itself. -/
def sameKey (a b : Scalar) : Bool :=
  match a, b with
  | null, null => true
  | text a, text b => a = b
  | timestamp a, timestamp b => a.same b
  | bytes a, bytes b => a = b
  | notANumber a, notANumber b => a = b
  | float a, float b => a = b || (a.toInt?.isSome && a.toInt? = b.toInt?)
  | _, _ => a.asInteger?.isSome && a.asInteger? = b.asInteger?

def byteText (quote : Char) (byte : UInt8) : List Char :=
  let c := Char.ofNat byte.toNat
  if c = quote ∨ c = '\\' then ['\\', c]
  else if c = '\t' then ['\\', 't']
  else if c = '\n' then ['\\', 'n']
  else if c = '\r' then ['\\', 'r']
  else if ' ' ≤ c ∧ c ≤ '~' then [c]
  else '\\' :: 'x' :: Text.hexDigits 2 byte.toNat

def bytesText (bytes : List UInt8) : String :=
  let quote := Text.quoteFor (bytes.map fun byte => Char.ofNat byte.toNat)
  String.ofList ('b' :: quote :: bytes.flatMap (byteText quote) ++ [quote])

theorem sameKey_text (value : Text.CodePoints) : sameKey (.text value) (.text value) = true :=
  decide_eq_true rfl

/-- The text of a key in a message, unless it is an integer of too many digits. -/
def keyText? : Scalar → Option Text.CodePoints
  | null => Text.codes "None"
  | boolean value => Text.codes (if value then "True" else "False")
  | integer value =>
    let digits := toString value.natAbs
    if Decimal.digitLimit < digits.length then none
    else Text.codes (if value < 0 then "-" ++ digits else digits)
  | float value => Text.codes (Decimal.plain.text value)
  | notANumber _ => Text.codes "nan"
  | text value => value
  | timestamp value => Text.codes value.toText
  | bytes value => Text.codes (bytesText value)

end Scalar

structure Mapping (α : Type) where
  entries : List (Scalar × α)
  distinct : entries.Pairwise fun a b => a.1.sameKey b.1 = false

namespace Mapping

variable {α β : Type}

def empty : Mapping α := ⟨[], .nil⟩

def putEntry (key : Scalar) (value : α) : List (Scalar × α) → List (Scalar × α)
  | [] => [(key, value)]
  | entry :: rest =>
    if entry.1.sameKey key then (entry.1, value) :: rest else entry :: putEntry key value rest

theorem mem_putEntry {key : Scalar} {value : α} {entries : List (Scalar × α)} {entry : Scalar × α}
    (inside : entry ∈ putEntry key value entries) :
    entry.1 = key ∨ ∃ old ∈ entries, old.1 = entry.1 := by
  induction entries with
  | nil => exact .inl (congrArg Prod.fst (List.mem_singleton.1 inside))
  | cons first rest ih =>
    rw [putEntry] at inside
    split at inside
    · rcases List.mem_cons.1 inside with rfl | inside
      · exact .inr ⟨first, List.mem_cons_self, rfl⟩
      · exact .inr ⟨entry, .tail _ inside, rfl⟩
    · rcases List.mem_cons.1 inside with rfl | inside
      · exact .inr ⟨entry, List.mem_cons_self, rfl⟩
      · exact (ih inside).imp_right fun ⟨old, there, same⟩ => ⟨old, .tail _ there, same⟩

theorem distinct_putEntry (key : Scalar) (value : α) {entries : List (Scalar × α)}
    (distinct : entries.Pairwise fun a b => a.1.sameKey b.1 = false) :
    (putEntry key value entries).Pairwise fun a b => a.1.sameKey b.1 = false := by
  induction entries with
  | nil => exact List.pairwise_singleton _ _
  | cons first rest ih =>
    obtain ⟨apart, others⟩ := List.pairwise_cons.1 distinct
    rw [putEntry]
    split
    · exact List.pairwise_cons.2 ⟨apart, others⟩
    · rename_i other
      refine List.pairwise_cons.2 ⟨fun entry inside => ?_, ih others⟩
      rcases mem_putEntry inside with same | ⟨old, there, same⟩
      · rw [same]
        exact Bool.eq_false_iff.2 other
      · rw [← same]
        exact apart old there

/-- Writes an entry. A key keeps its first place and form, and has its last value. -/
def put (mapping : Mapping α) (key : Scalar) (value : α) : Mapping α :=
  ⟨putEntry key value mapping.entries, distinct_putEntry key value mapping.distinct⟩

def map (f : α → β) (mapping : Mapping α) : Mapping β :=
  ⟨mapping.entries.map fun entry => (entry.1, f entry.2), List.pairwise_map.2 mapping.distinct⟩

theorem eq_of_mem (mapping : Mapping α) {key : Scalar} (same : key.sameKey key = true) {x y : α}
    (here : (key, x) ∈ mapping.entries) (there : (key, y) ∈ mapping.entries) : x = y := by
  obtain ⟨entries, distinct⟩ := mapping
  induction entries with
  | nil => cases here
  | cons first rest ih =>
    obtain ⟨apart, others⟩ := List.pairwise_cons.1 distinct
    -- A key that comes first does not come again.
    have alone {value : α} (own : first.1 = key) : (key, value) ∉ rest := fun inside => by
      have other := apart _ inside
      rw [own, same] at other
      cases other
    rcases List.mem_cons.1 here with head | inside
    · rcases List.mem_cons.1 there with head' | inside'
      · exact congrArg Prod.snd (head.trans head'.symm)
      · exact absurd inside' (alone (congrArg Prod.fst head.symm))
    · rcases List.mem_cons.1 there with head' | inside'
      · exact absurd inside (alone (congrArg Prod.fst head'.symm))
      · exact ih others inside inside'

end Mapping

/-- What a value is at first sight. `other` stands for what is neither a list nor a mapping and
still has parts. -/
inductive View (Value : Type)
  | scalar (value : Scalar)
  | list (items : List Value)
  | mapping (mapping : Mapping Value)
  | other

@[match_pattern]
abbrev View.text {Value : Type} (value : Text.CodePoints) : View Value := .scalar (.text value)

/-- A loader of documents: what its values are, what they look like, and which one a text has. -/
structure Loader where
  Value : Type
  look : Value → View Value
  load : String → Except Fault Value

end ArchDiagram.Yaml
