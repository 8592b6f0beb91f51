import TagTemplate.Number.Shortest

/-!
# Written numbers

A double is written with the fewest digits that read back, either positionally or with an
exponent. What differs between the places where numbers are written is collected in a `Layout`,
with one value for each place.
-/

namespace TagTemplate.Number

/-- The conventions of one place where doubles are written. -/
structure Layout where
  /-- Is a number whose first digit stands at this power of ten written positionally? -/
  positional : Int → Bool
  /-- Ends a whole number written positionally with a point and a zero. -/
  marksWhole : Bool
  /-- Least number of digits of an exponent. -/
  exponentDigits : Nat
  /-- Puts a sign before a positive exponent too. -/
  signsExponent : Bool
  /-- Choice between two equally near decimals. -/
  tie : Tie
  /-- What is written for a double that is no number. -/
  nanText : String

/-- Pads a number with zeros on the left. -/
def padded (width n : Nat) : List Char :=
  let ds := Nat.toDigits 10 n
  List.replicate (width - ds.length) '0' ++ ds

/-- Positional form of the digits `ds` whose point stands after the first `place` of them. -/
def positionalText (marksWhole : Bool) (ds : List Char) (place : Int) : List Char :=
  if place ≤ 0 then
    '0' :: '.' :: List.replicate (-place).toNat '0' ++ ds
  else if ds.length ≤ place.toNat then
    ds ++ List.replicate (place.toNat - ds.length) '0' ++ (if marksWhole then ['.', '0'] else [])
  else ds.take place.toNat ++ '.' :: ds.drop place.toNat

/-- Form with one digit before the point and the power of ten of that digit as exponent. -/
def exponentText (layout : Layout) (ds : List Char) (power : Int) : List Char :=
  let sign := if power < 0 then ['-'] else if layout.signsExponent then ['+'] else []
  let fraction := match ds.drop 1 with
    | [] => []
    | rest => '.' :: rest
  ds.take 1 ++ fraction ++ 'e' :: sign ++ padded layout.exponentDigits power.natAbs

/-- Writes a positive decimal. Zeros at the end of its digits are not written as digits. -/
def Decimal.write (layout : Layout) (d : Decimal) : List Char :=
  let all := Nat.toDigits 10 d.digits
  let ds := (all.reverse.dropWhile (· == '0')).reverse
  let place : Int := all.length + d.exponent
  if layout.positional (place - 1) then positionalText layout.marksWhole ds place
  else exponentText layout ds (place - 1)

/-- Writes a double. -/
def write (layout : Layout) (x : Float) : String :=
  let signed (negative : Bool) (cs : List Char) : String :=
    String.ofList (if negative then '-' :: cs else cs)
  match reading x with
  | .nan => layout.nanText
  | .infinite negative => signed negative ['i', 'n', 'f']
  | .finite negative 0 _ =>
    signed negative (if layout.marksWhole then ['0', '.', '0'] else ['0'])
  | .finite negative m q => signed negative ((shortest layout.tie m q).write layout)

/-- Numbers in output: always positional, whole numbers without a point. -/
def plain : Layout where
  positional _ := true
  marksWhole := false
  exponentDigits := 1
  signsExponent := false
  tie := .up
  nanText := "NaN"

/-- Numbers in descriptions of values: whole numbers are marked, and from `1e16` up and below
`1e-4` there is an exponent. -/
def described : Layout where
  positional power := -4 ≤ power && power < 16
  marksWhole := true
  exponentDigits := 1
  signsExponent := false
  tie := .up
  nanText := "NaN"

/-- Numbers that a scripting host turns into keys: as in descriptions, but the exponent has a sign
and two digits at least, and a tie goes to the even digit. -/
def keyed : Layout where
  positional power := -4 ≤ power && power < 16
  marksWhole := true
  exponentDigits := 2
  signsExponent := true
  tie := .even
  nanText := "nan"

end TagTemplate.Number
