import ArchDiagram.Decimal.Numeral

/-!
Binary numbers with 53 significant bits and exponents from -1074 to 971, the format in which
coordinates and decimal literals are held. Values are exact pairs of a significand and a power of
two, so equality is decidable and rounding is a statement about natural numbers. Every number is
held in one way: the significand has 53 bits unless the exponent is the least one.
-/

namespace ArchDiagram.Decimal

inductive Binary64
  | finite (negative : Bool) (significand : Nat) (exponent : Int)
  | infinite (negative : Bool)
  | notANumber
deriving DecidableEq, Repr

/-- A quotient rounded to the nearest natural number, a half to the even neighbour. -/
def roundQuotient (numerator denominator : Nat) : Nat :=
  let floor := numerator / denominator
  let rest := 2 * (numerator % denominator)
  if rest < denominator then floor
  else if denominator < rest then floor + 1
  else floor + floor % 2

namespace Binary64

def zero (negative : Bool) : Binary64 := .finite negative 0 (-1074)

def bitLength (n : Nat) : Nat := if n = 0 then 0 else n.log2 + 1

def scale (numerator denominator : Nat) (exponent : Int) : Nat × Nat :=
  if 0 ≤ exponent then (numerator, denominator * Nat.pow 2 exponent.toNat)
  else (numerator * Nat.pow 2 (-exponent).toNat, denominator)

/-- The exponent that leaves a positive fraction 53 bits before the point, or the least one. -/
def exponentFor (numerator denominator : Nat) : Int :=
  let low : Int := bitLength numerator - bitLength denominator - 53
  let scaled := scale numerator denominator low
  max (-1074) (if scaled.1 / scaled.2 < Nat.pow 2 53 then low else low + 1)

/-- The number nearest to a fraction; too large a fraction is infinite. -/
def ofFraction (negative : Bool) (numerator denominator : Nat) : Binary64 :=
  let exponent := exponentFor numerator denominator
  let scaled := scale numerator denominator exponent
  let significand := roundQuotient scaled.1 scaled.2
  -- Rounding up can reach one bit more, which is a power of two and loses nothing in halving.
  let carried := significand = Nat.pow 2 53
  let exponent := if carried then exponent + 1 else exponent
  if numerator = 0 then zero negative
  else if 971 < exponent then .infinite negative
  else .finite negative (if carried then Nat.pow 2 52 else significand) exponent

/-- The number nearest to a decimal numeral. Numerals of a size that is certainly infinite or zero
are not multiplied out. -/
def ofNumeral (numeral : Numeral) : Binary64 :=
  let digits : Int := (toString numeral.coefficient).length
  if numeral.coefficient = 0 then zero numeral.negative
  else if 310 < digits + numeral.exponent then .infinite numeral.negative
  else if digits + numeral.exponent < -330 then zero numeral.negative
  else if 0 ≤ numeral.exponent then
    ofFraction numeral.negative (numeral.coefficient * Nat.pow 10 numeral.exponent.toNat) 1
  else ofFraction numeral.negative numeral.coefficient (Nat.pow 10 (-numeral.exponent).toNat)

def ofText? (text : String) : Option Binary64 := (numeral? text.toList).map ofNumeral

/-- The number nearest to an integer times a power of two. A zero is positive. -/
def ofScaled (value : Int) (exponent : Int) : Binary64 :=
  if 0 ≤ exponent then ofFraction (value < 0) (value.natAbs * Nat.pow 2 exponent.toNat) 1
  else ofFraction (value < 0) value.natAbs (Nat.pow 2 (-exponent).toNat)

def ofNat? (n : Nat) : Option Binary64 :=
  match ofFraction false n 1 with
  | .infinite _ => none
  | number => some number

/-- Whether a number is negative; the sign of a zero counts. -/
def isNegative : Binary64 → Bool
  | .finite negative _ _ | .infinite negative => negative
  | .notANumber => false

def isZero : Binary64 → Bool
  | .finite _ significand _ => significand = 0
  | _ => false

/-- The rounded sum of two numbers. Opposite infinities have none. A zero that is not the sum of two
negative zeros is positive. -/
def add : Binary64 → Binary64 → Binary64
  | .finite n₁ s₁ e₁, .finite n₂ s₂ e₂ =>
    let low := min e₁ e₂
    if s₁ = 0 ∧ s₂ = 0 then zero (n₁ && n₂)
    else
      let left := signed n₁ (s₁ * Nat.pow 2 (e₁ - low).toNat)
      let right := signed n₂ (s₂ * Nat.pow 2 (e₂ - low).toNat)
      ofScaled (left + right) low
  | .infinite n₁, .infinite n₂ => if n₁ = n₂ then .infinite n₁ else .notANumber
  | .notANumber, _ | _, .notANumber => .notANumber
  | .infinite negative, _ | _, .infinite negative => .infinite negative

/-- The rounded product of two numbers. Zero times infinity has none. -/
def mul (x y : Binary64) : Binary64 :=
  let negative := x.isNegative != y.isNegative
  match x, y with
  | .finite _ s₁ e₁, .finite _ s₂ e₂ =>
    if 0 ≤ e₁ + e₂ then ofFraction negative (s₁ * s₂ * Nat.pow 2 (e₁ + e₂).toNat) 1
    else ofFraction negative (s₁ * s₂) (Nat.pow 2 (-(e₁ + e₂)).toNat)
  | .notANumber, _ | _, .notANumber => .notANumber
  | _, _ => if x.isZero || y.isZero then .notANumber else .infinite negative

def neg : Binary64 → Binary64
  | .finite negative significand exponent => .finite (!negative) significand exponent
  | .infinite negative => .infinite (!negative)
  | .notANumber => .notANumber

def toInt? : Binary64 → Option Int
  | .finite negative significand exponent =>
    if 0 ≤ exponent then some (signed negative (significand * Nat.pow 2 exponent.toNat))
    else if significand % Nat.pow 2 (-exponent).toNat = 0 then
      some (signed negative (significand / Nat.pow 2 (-exponent).toNat))
    else none
  | _ => none

end Binary64

end ArchDiagram.Decimal
