/-!
# Doubles as integers times powers of two

A finite double is `m * 2 ^ q` with integers `m` and `q`, up to its sign. `Reading` takes a double
apart, `nearest` goes the other way: it rounds a quotient of natural numbers to the nearest double,
a tie to the even neighbour. Both work on the bits and in exact arithmetic. Powers are called by name
here, so that no other notion of power is meant where more of algebra is known.
-/

namespace TagTemplate.Number

/-- What a double stands for. -/
inductive Reading where
  | nan
  | infinite (negative : Bool)
  /-- The number `± mantissa * 2 ^ exponent`. -/
  | finite (negative : Bool) (mantissa : Nat) (exponent : Int)
  deriving DecidableEq

/-- The exponent of the smallest positive double. -/
def leastExponent : Int := -1074

/-- Reads the 64 bits of a double: sign, eleven bits of exponent, 52 bits of fraction. -/
def Reading.ofBits (bits : Nat) : Reading :=
  let negative := decide (Nat.pow 2 63 ≤ bits)
  let biased : Nat := bits / Nat.pow 2 52 % Nat.pow 2 11
  let fraction := bits % Nat.pow 2 52
  if biased = 2047 then
    if fraction = 0 then .infinite negative else .nan
  else if biased = 0 then .finite negative fraction leastExponent
  else .finite negative (Nat.pow 2 52 + fraction) ((biased : Int) - 1075)

/-- Takes a double apart. -/
def reading (x : Float) : Reading :=
  .ofBits x.toBits.toNat

/-- The quotient rounded to the nearest integer, a tie to the even one. -/
def roundDiv (num den : Nat) : Nat :=
  let quotient := num / den
  let twice := 2 * (num % den)
  if twice < den ∨ (twice = den ∧ quotient % 2 = 0) then quotient else quotient + 1

/-- The quotient `num / (den * 2 ^ q)` as a pair of natural numbers. -/
def scaleDown (num den : Nat) (q : Int) : Nat × Nat :=
  (num * Nat.pow 2 (-q).toNat, den * Nat.pow 2 q.toNat)

/-- The bits of the double nearest to `num / den`. The exponent is chosen so that the integer
part has 53 bits, or is the least exponent; what is too large becomes infinite. -/
def nearestBits (num den : Nat) : Nat :=
  if num = 0 then 0
  else
    let guess : Int := (num.log2 : Int) - den.log2 - 53
    let (n, d) := scaleDown num den guess
    let q := max (if n / d < Nat.pow 2 53 then guess else guess + 1) leastExponent
    let (n, d) := scaleDown num den q
    min ((q - leastExponent).toNat * Nat.pow 2 52 + roundDiv n d) (2047 * Nat.pow 2 52)

/-- The double nearest to `± num / den`. -/
def nearest (negative : Bool) (num den : Nat) : Float :=
  .ofBits (.ofNat ((if negative then Nat.pow 2 63 else 0) + nearestBits num den))

/-- The double nearest to an integer. -/
def ofInt (n : Int) : Float :=
  nearest (decide (n < 0)) n.natAbs 1

end TagTemplate.Number
