import TagTemplate.Foreign.Object
import TagTemplate.Text.Visible

/-!
# Keys of a scripting host

The scripting host's notion of equal keys, and the texts that keys become. A truth value, an
integer and a double are the same key if they are the same number; numbers that are no number are
never the same key. In a dict, a key that is set again stays as it is and takes the new value.
-/

namespace TagTemplate.Foreign

/-- A number in the exact sense in which keys are compared. -/
inductive Exact where
  | integer (n : Int)
  | fraction (negative : Bool) (mantissa : Nat) (exponent : Int)
  | infinite (negative : Bool)
  deriving DecidableEq

namespace Exact

/-- The number `± m * 2 ^ q`, as an integer if it is one. -/
def ofBinary (negative : Bool) (m : Nat) (q : Int) : Exact :=
  let den := Nat.pow 2 (-q).toNat
  if m % den = 0 then
    let n : Int := m / den * Int.pow 2 q.toNat
    integer (if negative then -n else n)
  else fraction negative m q

/-- The number that a double is, if it is one. -/
def ofFloat? (x : Float) : Option Exact :=
  match Number.reading x with
  | .nan => none
  | .infinite negative => some (infinite negative)
  | .finite negative m q => some (ofBinary negative m q)

end Exact

namespace Object

/-- The number that an object is as a key. -/
def number? : Object → Option Exact
  | bool b => some (.integer (if b then 1 else 0))
  | int n => some (.integer n)
  | float x => Exact.ofFloat? x
  | markup _ under => under.number?
  | _ => Option.none

mutual

/-- Are two objects the same key? Objects without a notion of equality are like no other. -/
def sameKey : Object → Object → Bool
  | markup _ a, b => a.sameKey b
  | a, markup _ b => a.sameKey b
  | none, none => true
  | text a, text b => a == b
  | tuple as, tuple bs => sameKeys as bs
  | a, b =>
    match a.number?, b.number? with
    | some x, some y => x == y
    | _, _ => false

/-- Are two sequences the same keys? -/
def sameKeys : List Object → List Object → Bool
  | [], [] => true
  | a :: as, b :: bs => a.sameKey b && sameKeys as bs
  | _, _ => false

end

/-- Sets a key in a dict. -/
def setKey {α : Type} (key : Object) (a : α) : List (Object × α) → List (Object × α)
  | [] => [(key, a)]
  | (k, b) :: rest => if k.sameKey key then (k, a) :: rest else (k, b) :: setKey key a rest

/-- The dict that settings give. -/
def mergeKeys {α : Type} (entries : List (Object × α)) : List (Object × α) :=
  entries.foldl (fun es (key, a) => setKey key a es) []

/-- A code point in a fixed number of hexadecimal digits. -/
def hexText (mark : Char) (width n : Nat) : List Char :=
  let ds := Nat.toDigits 16 n
  '\\' :: mark :: List.replicate (width - ds.length) '0' ++ ds

/-- Does the host write a character as itself? It knows the characters of Unicode 14. -/
def isPlain (c : Char) : Bool :=
  !Text.inRanges Text.hiddenRanges c && !Text.inRanges Text.laterRanges c

/-- One character of a text inside a tuple that is used as a key. -/
def nestedChar (quote c : Char) : List Char :=
  if c = quote ∨ c = '\\' then ['\\', c]
  else if c = '\n' then ['\\', 'n']
  else if c = '\r' then ['\\', 'r']
  else if c = '\t' then ['\\', 't']
  else if isPlain c then [c]
  else if c.toNat < 0x100 then hexText 'x' 2 c.toNat
  else if c.toNat < 0x10000 then hexText 'u' 4 c.toNat
  else hexText 'U' 8 c.toNat

/-- A text inside a tuple that is used as a key: in single quotes, or in double quotes if it holds
single quotes and no double ones. -/
def nestedText (s : String) : String :=
  let cs := s.toList
  let quote := if cs.contains '\'' && !cs.contains '"' then '"' else '\''
  String.ofList (quote :: cs.flatMap (nestedChar quote) ++ [quote])

/-- A tuple in parentheses; a comma follows a single item. -/
def tupleText (items : List String) : String :=
  match items with
  | [item] => "(" ++ item ++ ",)"
  | _ => "(" ++ ", ".intercalate items ++ ")"

mutual

/-- The text that a key becomes. Lists and dicts are never keys. -/
def keyText : Object → String
  | none => "None"
  | bool b => if b then "True" else "False"
  | int n => toString n
  | float x => Number.write Number.keyed x
  | text s => s
  | tuple items => tupleText (nestedTexts items)
  | markup _ under => under.keyText
  | list _ => ""
  | dict _ => ""
  | other typeName => typeName

/-- The texts of the items of a tuple that is used as a key. -/
def nestedTexts : List Object → List String
  | [] => []
  | text s :: rest => nestedText s :: nestedTexts rest
  | markup _ (text s) :: rest => nestedText s :: nestedTexts rest
  | a :: rest => a.keyText :: nestedTexts rest

end

end Object

end TagTemplate.Foreign
