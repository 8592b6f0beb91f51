import TagTemplate.Number.Binary

/-!
# Numbers read from text

Integers of 64 bits, positions in a list, and doubles. A double is read exactly: the decimal is
taken as a quotient of natural numbers and rounded once.
-/

namespace TagTemplate.Number

/-- The number that decimal digits spell, continuing from `start`. -/
def digitsFrom (start : Nat) (ds : List Char) : Nat :=
  ds.foldl (fun n c => 10 * n + (c.toNat - '0'.toNat)) start

/-- Reads a text of one or more decimal digits and nothing else. -/
def readDigits? : List Char → Option Nat
  | [] => none
  | ds => if ds.all Char.isDigit then some (digitsFrom 0 ds) else none

/-- Splits a sign from a text; the flag says whether it was a minus. -/
def splitSign : List Char → Bool × List Char
  | '-' :: cs => (true, cs)
  | '+' :: cs => (false, cs)
  | cs => (false, cs)

/-- Does an integer fit into 64 bits? -/
def fitsWord (n : Int) : Bool :=
  -Int.pow 2 63 ≤ n && n < Int.pow 2 63

/-- Reads an integer with an optional sign, if it fits into 64 bits. -/
def readInt? (cs : List Char) : Option Int64 :=
  let (negative, ds) := splitSign cs
  match readDigits? ds with
  | some n =>
    let value : Int := if negative then -n else n
    if fitsWord value then some (Int64.ofInt value) else none
  | none => none

/-- Reads a position in a list: digits after an optional plus, less than `2 ^ 64`. -/
def readIndex? (cs : List Char) : Option Nat :=
  let ds := match cs with
    | '+' :: rest => rest
    | _ => cs
  match readDigits? ds with
  | some n => if n < Nat.pow 2 64 then some n else none
  | none => none

/-- Reads the exponent after the mantissa of a decimal: nothing, or a mark and an integer. -/
def readExponent? : List Char → Option Int
  | [] => some 0
  | c :: cs =>
    if c = 'e' ∨ c = 'E' then
      let (negative, ds) := splitSign cs
      (readDigits? ds).map fun n => if negative then -(n : Int) else n
    else none

/-- Reads a decimal without sign, as its digits and the power of ten of the last one. -/
def readDecimal? (cs : List Char) : Option (Nat × Int) :=
  let whole := cs.takeWhile Char.isDigit
  let rest := cs.dropWhile Char.isDigit
  let (fraction, rest) := match rest with
    | '.' :: after => (after.takeWhile Char.isDigit, after.dropWhile Char.isDigit)
    | _ => ([], rest)
  if whole.isEmpty && fraction.isEmpty then none
  else (readExponent? rest).map fun e =>
    (digitsFrom (digitsFrom 0 whole) fraction, e - fraction.length)

/-- The double nearest to `± digits * 10 ^ exponent`. Far outside the range of doubles the answer
is known without computing the power. -/
def ofDecimal (negative : Bool) (digits : Nat) (exponent : Int) : Float :=
  let size : Int := (Nat.toDigits 10 digits).length + exponent
  if digits = 0 ∨ size < -400 then nearest negative 0 1
  else if 400 < size then nearest negative (Nat.pow 2 1024) 1
  else nearest negative (digits * Nat.pow 10 exponent.toNat) (Nat.pow 10 (-exponent).toNat)

/-- Reads a double: an optional sign, then a decimal or one of the words for infinity and for no
number, in any case of letters. -/
def readFloat? (cs : List Char) : Option Float :=
  let (negative, rest) := splitSign cs
  match readDecimal? rest with
  | some (digits, exponent) => some (ofDecimal negative digits exponent)
  | none =>
    let word := String.ofList (rest.map Char.toLower)
    if word = "inf" ∨ word = "infinity" then some (nearest negative (Nat.pow 2 1024) 1)
    else if word = "nan" then some (0 / 0)
    else none

end TagTemplate.Number
