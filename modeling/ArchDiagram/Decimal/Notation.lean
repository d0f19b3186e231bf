import ArchDiagram.Decimal.Shortest

/-!
Layout of decimal digits. Numbers of a moderate size are written with all their digits around the
point, and always with a digit behind it; others as one digit, the further ones behind the point,
and a signed power of ten. Where the sizes end is the choice of each output.
-/

namespace ArchDiagram.Decimal

/-- The least and the greatest power of ten of a first digit that is written around the point, and
the least number of digits of a written power. -/
structure Layout where
  least : Int
  greatest : Int
  powerDigits : Nat

/-- The digits around the point, where the last digit counts `10 ^ power`. -/
def positional (digits : List Char) (power : Int) : List Char :=
  let places := (-power).toNat
  if 0 ≤ power then digits ++ List.replicate power.toNat '0' ++ ['.', '0']
  else if places < digits.length then
    digits.take (digits.length - places) ++ '.' :: digits.drop (digits.length - places)
  else '0' :: '.' :: List.replicate (places - digits.length) '0' ++ digits

def scientific (powerDigits : Nat) (digits : List Char) (power : Int) : List Char :=
  let size := (toString power.natAbs).toList
  let padding := List.replicate (powerDigits - size.length) '0'
  let fraction := if digits.length ≤ 1 then [] else '.' :: digits.drop 1
  digits.take 1 ++ fraction ++ 'e' :: (if power < 0 then '-' else '+') :: padding ++ size

def Layout.digits (layout : Layout) (digits : Digits) : List Char :=
  let first : Int := digits.power + digits.digits.length - 1
  if layout.least ≤ first ∧ first ≤ layout.greatest then positional digits.digits digits.power
  else scientific layout.powerDigits digits.digits first

def Layout.text (layout : Layout) : Binary64 → String
  | .finite negative significand exponent =>
    let unsigned := layout.digits (shortest significand exponent)
    String.ofList (if negative then '-' :: unsigned else unsigned)
  | .infinite negative => if negative then "-inf" else "inf"
  | .notANumber => "nan"

/-- Numbers as text have all digits up to sixteen places before and four behind the point. -/
def plain : Layout := ⟨-4, 15, 2⟩

end ArchDiagram.Decimal
