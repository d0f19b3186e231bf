import ArchDiagram.Decimal.Binary64

/-!
The shortest decimal that reads back as a given binary number. The numbers that round to it form an
interval; of the grids of multiples of a power of ten, from coarse to fine, the first one with a
point in the interval is taken, and there the point nearest to the number.
-/

namespace ArchDiagram.Decimal

/-- The numbers that round to a positive binary number, as multiples of `1 / denominator`: the
number itself, the ends of the interval, and whether the ends belong to it. -/
structure Interval where
  low : Nat
  value : Nat
  high : Nat
  denominator : Nat
  closed : Bool

/-- The interval around `significand * 2 ^ exponent`. Below a power of two the neighbour is half as
far away, and an even significand wins the ties at both ends. -/
def Interval.around (significand : Nat) (exponent : Int) : Interval :=
  let below := if significand = Nat.pow 2 52 ∧ -1074 < exponent then 1 else 2
  let up := Nat.pow 2 exponent.toNat
  { low := (4 * significand - below) * up
    value := 4 * significand * up
    high := (4 * significand + 2) * up
    denominator := 4 * Nat.pow 2 (-exponent).toNat
    closed := significand % 2 = 0 }

def Interval.holds (interval : Interval) (multiple : Nat) (power : Int) : Bool :=
  let point := multiple * Nat.pow 10 power.toNat * interval.denominator
  let unit := Nat.pow 10 (-power).toNat
  if interval.closed then interval.low * unit ≤ point && point ≤ interval.high * unit
  else interval.low * unit < point && point < interval.high * unit

/-- The point of the grid of multiples of `10 ^ power` that lies in the interval and is nearest to
its value; of two equally near ones, the even one. -/
def Interval.gridPoint? (interval : Interval) (power : Int) : Option Nat :=
  let numerator := interval.value * Nat.pow 10 (-power).toNat
  let denominator := interval.denominator * Nat.pow 10 power.toNat
  let lower := numerator / denominator
  let nearest := roundQuotient numerator denominator
  if interval.holds nearest power then some nearest
  else if interval.holds lower power then some lower
  else if interval.holds (lower + 1) power then some (lower + 1)
  else none

def Interval.coarsest? (interval : Interval) : (steps : Nat) → Int → Option (Nat × Int)
  | 0, _ => none
  | steps + 1, power =>
    match interval.gridPoint? power with
    | some point => some (point, power)
    | none => interval.coarsest? steps (power - 1)

/-- A power of ten above a positive number of the given bits, by at most a factor of a thousand. -/
def powerAbove (bits : Int) : Int := bits * 30103 / 100000 + 1

/-- Decimal digits, most significant first, and the power of ten of the last one. -/
structure Digits where
  digits : List Char
  power : Int

def trimZeros : (steps : Nat) → Nat → Int → Nat × Int
  | 0, n, power => (n, power)
  | steps + 1, n, power =>
    if n ≠ 0 ∧ n % 10 = 0 then trimZeros steps (n / 10) (power + 1) else (n, power)

/-- The shortest digits of a binary number without its sign. Zero has the digit `0`. -/
def shortest (significand : Nat) (exponent : Int) : Digits :=
  let bits : Int := Binary64.bitLength significand + exponent
  let found := ((Interval.around significand exponent).coarsest? 24 (powerAbove bits)).getD (0, 0)
  let trimmed := trimZeros 20 found.1 found.2
  if significand = 0 then ⟨['0'], 0⟩ else ⟨(toString trimmed.1).toList, trimmed.2⟩

end ArchDiagram.Decimal
