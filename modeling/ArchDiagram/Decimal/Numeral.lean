/-!
Numbers in decimal text: an optional sign, digits with an optional point, and an optional power of
ten. Reading is exact; which numbers a computer can hold is another module's concern.
-/

namespace ArchDiagram.Decimal

def digit? (c : Char) : Option Nat :=
  if '0' ≤ c ∧ c ≤ '9' then some (c.toNat - '0'.toNat) else none

/-- The value of digits, most significant first, behind the digits already read. -/
def digitsFrom? (value : Nat) : List Char → Option Nat
  | [] => some value
  | c :: cs => (digit? c).bind fun d => digitsFrom? (10 * value + d) cs

def natural? (cs : List Char) : Option Nat := if cs.isEmpty then none else digitsFrom? 0 cs

def cutSign : List Char → Bool × List Char
  | '-' :: rest => (true, rest)
  | '+' :: rest => (false, rest)
  | rest => (false, rest)

def signed (negative : Bool) (size : Nat) : Int := if negative then -(size : Int) else size

def integer? (cs : List Char) : Option Int :=
  (natural? (cutSign cs).2).map (signed (cutSign cs).1)

/-- A number `coefficient * 10 ^ exponent` with a sign, which a zero has too. -/
structure Numeral where
  negative : Bool
  coefficient : Nat
  exponent : Int
deriving DecidableEq, Repr

def power? : List Char → Option Int
  | [] => some 0
  | c :: rest => if c = 'e' ∨ c = 'E' then integer? rest else none

/-- The number that a text spells. There is a digit before or behind the point. -/
def numeral? (cs : List Char) : Option Numeral :=
  let isDigit (c : Char) : Bool := (digit? c).isSome
  let unsigned := (cutSign cs).2
  let whole := unsigned.takeWhile isDigit
  let rest := unsigned.dropWhile isDigit
  let fraction := match rest with
    | '.' :: more => more.takeWhile isDigit
    | _ => []
  let tail := match rest with
    | '.' :: more => more.dropWhile isDigit
    | _ => rest
  (natural? (whole ++ fraction)).bind fun coefficient =>
    (power? tail).map fun power =>
      ⟨(cutSign cs).1, coefficient, power - fraction.length⟩

def anyDigit? (c : Char) : Option Nat :=
  if '0' ≤ c ∧ c ≤ '9' then some (c.toNat - '0'.toNat)
  else if 'a' ≤ c ∧ c ≤ 'z' then some (c.toNat - 'a'.toNat + 10)
  else if 'A' ≤ c ∧ c ≤ 'Z' then some (c.toNat - 'A'.toNat + 10)
  else none

def digitsInBase? (base value : Nat) : List Char → Option Nat
  | [] => some value
  | c :: cs =>
    (anyDigit? c).bind fun d => if d < base then digitsInBase? base (base * value + d) cs else none

def naturalInBase? (base : Nat) (cs : List Char) : Option Nat :=
  if cs.isEmpty then none else digitsInBase? base 0 cs

end ArchDiagram.Decimal
