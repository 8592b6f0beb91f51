import TagTemplate.Entries
import TagTemplate.Html.Escaper
import TagTemplate.Number.Read
import TagTemplate.Number.Written

/-!
# Values

The values that template variables hold and expressions give, with the text each prints as, its
truth, and the look-up of a part by name or position.
-/

namespace TagTemplate

/-- A value of a template. The entries of a map have distinct names. -/
inductive Value where
  | null
  | bool (b : Bool)
  | int (n : Int64)
  | float (x : Float)
  | text (s : String)
  | safe (s : SafeText)
  | list (items : List Value)
  | map (entries : List (String × Value))

namespace Value

instance : Inhabited Value := ⟨null⟩

/-- The kinds of value. -/
inductive Kind where
  | null | bool | int | float | text | safe | list | map
  deriving DecidableEq

/-- What a kind of value is called in messages. -/
def Kind.name : Kind → String
  | .null => "null"
  | .bool => "bool"
  | .int => "int"
  | .float => "float"
  | .text => "string"
  | .safe => "safe string"
  | .list => "list"
  | .map => "map"

/-- The kind of a value. -/
def kind : Value → Kind
  | null => .null
  | bool _ => .bool
  | int _ => .int
  | float _ => .float
  | text _ => .text
  | safe _ => .safe
  | list _ => .list
  | map _ => .map

/-- A map with the given entries, in which a repeated name keeps its first place and takes its
last value. -/
def ofEntries (entries : List (String × Value)) : Value :=
  map (Entries.ofList entries)

/-- Is this the null value? -/
def isNull : Value → Bool
  | null => true
  | _ => false

/-- Null, false, zero, no-number and empty text are false; lists and maps are true even when
they are empty. -/
def isTruthy : Value → Bool
  | null => false
  | bool b => b
  | int n => n != 0
  | float x => x != 0 && !x.isNaN
  | text s => !s.isEmpty
  | safe s => !s.isEmpty
  | list _ => true
  | map _ => true

/-- The words for truth values. -/
def boolText (b : Bool) : String :=
  if b then "true" else "false"

/-- The decimal digits of an integer. -/
def intText (n : Int64) : String :=
  toString n.toInt

mutual

/-- The text that a value prints as. Null prints nothing, a list its items between commas, a map
its entries between braces. -/
def display : Value → String
  | null => ""
  | bool b => boolText b
  | int n => intText n
  | float x => Number.write Number.plain x
  | text s => s
  | safe s => s.text
  | list items => ",".intercalate (displayItems items)
  | map entries => "\x7b" ++ ", ".intercalate (displayEntries entries) ++ "\x7d"

/-- The texts of the items of a list. -/
def displayItems : List Value → List String
  | [] => []
  | v :: rest => v.display :: displayItems rest

/-- The texts of the entries of a map. -/
def displayEntries : List (String × Value) → List String
  | [] => []
  | (name, v) :: rest => (name ++ ": " ++ v.display) :: displayEntries rest

end

/-- A part of a value: the entry of a map with this name, or the item of a list at this position.
Other values have no parts. -/
def get? (key : String) : Value → Option Value
  | map entries => Entries.get? key entries
  | list items => (Number.readIndex? key.toList).bind (items[·]?)
  | _ => none

end Value

end TagTemplate
