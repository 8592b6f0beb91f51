import TagTemplate.Text.CaseTable

/-!
# Upper and lower case

Full Unicode case mapping of a text. Every character maps on its own, to one or more characters,
with one exception: a capital sigma that ends a word becomes the final form `ς`.
-/

namespace TagTemplate.Text

/-- Does the run hold this code point? -/
def CaseRun.holds (r : CaseRun) (n : Nat) : Bool :=
  r.first ≤ n && n ≤ r.last && (n - r.first) % r.stride == 0

/-- The mapping of one character by a table of expansions and a table of runs. -/
def mapChar (expansions : List (Nat × List Nat)) (runs : List CaseRun) (c : Char) : List Char :=
  match expansions.lookup c.toNat with
  | some codes => codes.map Char.ofNat
  | none =>
    match runs.find? (·.holds c.toNat) with
    | some r => [Char.ofNat (c.toNat + r.shift).toNat]
    | none => [c]

/-- The upper-case form of one character. -/
def upperChar : Char → List Char :=
  mapChar upperExpansions upperRuns

/-- The lower-case form of one character, wherever it stands. -/
def lowerChar : Char → List Char :=
  mapChar lowerExpansions lowerRuns

/-- The upper-case form of a text. -/
def upper (cs : List Char) : List Char :=
  cs.flatMap upperChar

/-- Is the first character that is not case-ignorable a cased one? -/
def meetsCased (cs : List Char) : Bool :=
  match cs.dropWhile (inRanges caseIgnorableRanges) with
  | c :: _ => inRanges casedRanges c
  | [] => false

/-- Lower-cases a text whose earlier characters are `before`, the nearest first. A sigma is final
when a cased letter stands before it and none after it. -/
def lowerAfter (before : List Char) : List Char → List Char
  | [] => []
  | c :: rest =>
    (if c = 'Σ' then [if meetsCased before && !meetsCased rest then 'ς' else 'σ']
     else lowerChar c) ++ lowerAfter (c :: before) rest

/-- The lower-case form of a text. -/
def lower (cs : List Char) : List Char :=
  lowerAfter [] cs

end TagTemplate.Text
