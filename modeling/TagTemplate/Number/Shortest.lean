import TagTemplate.Number.Binary

/-!
# The fewest digits that read back

For a positive number `m * 2 ^ q`, the reals that round to it form an interval around it, which
holds its ends exactly if `m` is even. `shortest` looks for the decimal with the fewest digits in
that interval: on the grid of 1, 2, … 17 digits it tests the two neighbours of the number, takes
the nearer of two hits, and leaves an exact tie to its caller. Everything is exact arithmetic.
-/

namespace TagTemplate.Number

/-- Which of two equally near decimals is taken. -/
inductive Tie where
  | up
  | even
  deriving DecidableEq

/-- The number `digits * 10 ^ exponent`. -/
structure Decimal where
  digits : Nat
  exponent : Int
  deriving DecidableEq

/-- A positive number and the ends of the interval that rounds to it, as numerators over one
denominator. -/
structure Interval where
  low : Nat
  value : Nat
  high : Nat
  den : Nat
  /-- Do the ends themselves round to the number? -/
  closed : Bool

/-- The interval of the double `m * 2 ^ q`. Below a power of two the doubles lie twice as close. -/
def Interval.ofBinary (m : Nat) (q : Int) : Interval :=
  let unit := Nat.pow 2 (q - 2).toNat
  let below := if m = Nat.pow 2 52 ∧ leastExponent < q then 1 else 2
  { low := (4 * m - below) * unit
    value := 4 * m * unit
    high := (4 * m + 2) * unit
    den := Nat.pow 2 (2 - q).toNat
    closed := m % 2 = 0 }

/-- How many decimal digits a natural number has. -/
def countDigits (n : Nat) : Nat :=
  (Nat.toDigits 10 n).length

/-- The place of the first digit: `k` such that the number is at least `10 ^ (k - 1)` and less
than `10 ^ k`. -/
def Interval.magnitude (i : Interval) : Int :=
  if i.den ≤ i.value then countDigits (i.value / i.den)
  else 1 - countDigits (i.den / i.value)

/-- The decimal on the grid `10 ^ g` that lies in the interval and is nearest to its number. -/
def Interval.pick? (tie : Tie) (i : Interval) (g : Int) : Option Nat :=
  let step := Nat.pow 10 g.toNat * i.den
  let scale := Nat.pow 10 (-g).toNat
  let inside (c : Nat) : Bool :=
    if i.closed then i.low * scale ≤ c * step && c * step ≤ i.high * scale
    else i.low * scale < c * step && c * step < i.high * scale
  let floor := i.value * scale / step
  let twice := 2 * (i.value * scale % step)
  let takeFloor := twice < step || (twice == step && tie == .even && floor % 2 == 0)
  match inside floor, inside (floor + 1) with
  | true, true => some (if takeFloor then floor else floor + 1)
  | true, false => some floor
  | false, true => some (floor + 1)
  | false, false => none

/-- Tries grids of `n`, `n + 1`, … digits, `tries` of them. -/
def Interval.search (tie : Tie) (i : Interval) (n : Nat) : (tries : Nat) → Decimal
  | 0 => ⟨i.value / i.den, 0⟩
  | tries + 1 =>
    let g := i.magnitude - n
    match i.pick? tie g with
    | some c => ⟨c, g⟩
    | none => i.search tie (n + 1) tries

/-- The shortest decimal that rounds to the double `m * 2 ^ q`. Seventeen digits always do. -/
def shortest (tie : Tie) (m : Nat) (q : Int) : Decimal :=
  (Interval.ofBinary m q).search tie 1 17

end TagTemplate.Number
