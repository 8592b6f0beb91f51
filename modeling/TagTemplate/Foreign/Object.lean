import TagTemplate.Value

/-!
# Objects of a scripting host

A scripting host hands over objects of its own: numbers of any size, lists and tuples, dicts with
keys of many kinds, and objects that know their own markup.
-/

namespace TagTemplate.Foreign

/-- An object of the scripting host. -/
inductive Object where
  | none
  | bool (b : Bool)
  | int (n : Int)
  | float (x : Float)
  | text (s : String)
  | list (items : List Object)
  | tuple (items : List Object)
  | dict (entries : List (Object × Object))
  /-- An object with markup of its own, over one that it is like in other respects. Asked for its
  markup, it answers or gives the reason why it does not. -/
  | markup (html : Except String String) (under : Object)
  /-- An object of a type that means nothing in a template. -/
  | other (typeName : String)

/-- Why an object cannot be used. -/
inductive Error where
  /-- The object has no meaning here, for this reason. -/
  | value (reason : String)
  /-- The integer is too large for a double. -/
  | overflow
  deriving DecidableEq

/-- The error in words. -/
def Error.message : Error → String
  | value reason => reason
  | overflow => "int too large to convert to float"

end TagTemplate.Foreign
