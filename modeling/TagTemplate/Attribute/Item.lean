import TagTemplate.Value

/-!
# Attribute items

An attribute list is made of items of three shapes: a bare flag, a list of bare flags, and a map
from attribute names to values. `Item.ofValues` sorts evaluated arguments into these shapes once,
and refuses what makes no sense as an attribute, so that writing the attributes never has to look
at types again.
-/

namespace TagTemplate

/-- Why an argument was refused. -/
inductive ArgumentError where
  /-- The attributes came as something other than a list. -/
  | notASequence (got : Value.Kind)
  /-- A list or map stood where a single text or number was needed. -/
  | notAScalar (got : Value.Kind)
  /-- A list or map stood inside a list of flags or a list of values. -/
  | nested (got : Value.Kind)
  /-- The name of a tag or element is empty; `role` says what it names. -/
  | emptyName (role : String)
  /-- The name of a tag or element cannot stand in markup. -/
  | invalidName (role name : String)
  /-- A reason given by the tag or filter that refuses. -/
  | other (reason : String)
  deriving DecidableEq

/-- The reason in words. -/
def ArgumentError.reason : ArgumentError → String
  | notASequence got => "attributes must be a sequence, got " ++ got.name
  | notAScalar got => "expected a string or number, got " ++ got.name
  | nested got => "nested " ++ got.name ++ " is not allowed inside an attribute list"
  | emptyName role => role ++ " must not be empty"
  | invalidName role name => role ++ " '" ++ name ++ "' is not a valid element name"
  | other reason => reason

/-- The whole message. -/
def ArgumentError.message (e : ArgumentError) : String :=
  "Invalid argument: " ++ e.reason

namespace Attribute

/-- A value that can be written as a single token. -/
inductive Scalar where
  | null
  | bool (b : Bool)
  | int (n : Int64)
  | float (x : Float)
  | text (s : String)
  | safe (s : SafeText)

namespace Scalar

/-- The text that a scalar prints as. -/
def display : Scalar → String
  | null => ""
  | bool b => Value.boolText b
  | int n => Value.intText n
  | float x => Number.write Number.plain x
  | text s => s
  | safe s => s.text

/-- The text of a scalar in markup. Safe text stands as it is. -/
def escaped (escaper : Escaper) : Scalar → String
  | null => ""
  | safe s => s.text
  | s => escaper.escape s.display

/-- Every value but a list or a map is a scalar. -/
def ofValue? : Value → Option Scalar
  | .null => some null
  | .bool b => some (bool b)
  | .int n => some (int n)
  | .float x => some (float x)
  | .text s => some (text s)
  | .safe s => some (safe s)
  | .list _ => none
  | .map _ => none

/-- The scalar that a value is, or the reason why it is none. -/
def ofValue (v : Value) : Except ArgumentError Scalar :=
  match ofValue? v with
  | some s => .ok s
  | none => .error (.notAScalar v.kind)

/-- The scalars of a list. Nulls are left out, lists and maps refused. -/
def ofItems : List Value → Except ArgumentError (List Scalar)
  | [] => .ok []
  | .null :: rest => ofItems rest
  | v :: rest =>
    match ofValue? v with
    | some s => (ofItems rest).map (s :: ·)
    | none => .error (.nested v.kind)

end Scalar

/-- The value of one attribute. -/
inductive Content where
  /-- A single token. -/
  | scalar (s : Scalar)
  /-- Tokens of which each is written once. -/
  | list (items : List Scalar)
  /-- Markup that is written as it is. -/
  | safe (s : SafeText)
  /-- Names of which those that are on are written. -/
  | flags (entries : Entries Bool)

/-- What a value means as the value of one attribute. -/
def Content.ofValue : Value → Except ArgumentError Content
  | .list items => (Scalar.ofItems items).map list
  | .safe s => .ok (safe s)
  | .map entries => .ok (flags (entries.map fun (name, v) => (name, v.isTruthy)))
  | v => (Scalar.ofValue v).map scalar

/-- One item of an attribute list. -/
inductive Item where
  | flag (s : Scalar)
  | flags (items : List Scalar)
  | map (entries : Entries Content)

namespace Item

/-- The attribute values of a map, in order; the first refusal wins. -/
def contents : List (String × Value) → Except ArgumentError (Entries Content)
  | [] => .ok []
  | (name, v) :: rest =>
    match Content.ofValue v with
    | .ok content => (contents rest).map ((name, content) :: ·)
    | .error e => .error e

/-- What a value means as an item. Null and the truth values name no attribute. -/
def ofValue : Value → Except ArgumentError (Option Item)
  | .null => .ok none
  | .bool _ => .ok none
  | .list items => (Scalar.ofItems items).map (some ∘ flags)
  | .map entries => (contents entries).map (some ∘ map)
  | v => (Scalar.ofValue v).map (some ∘ flag)

/-- The items that evaluated arguments stand for; the first refusal wins. -/
def ofValues : List Value → Except ArgumentError (List Item)
  | [] => .ok []
  | v :: rest =>
    match ofValue v with
    | .ok (some item) => (ofValues rest).map (item :: ·)
    | .ok none => ofValues rest
    | .error e => .error e

/-- The items of an attribute list that is given as one value. -/
def ofListValue : Value → Except ArgumentError (List Item)
  | .list items => ofValues items
  | v => .error (.notASequence v.kind)

end Item

end Attribute

end TagTemplate
