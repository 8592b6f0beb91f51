import TagTemplate.Foreign.Key

/-!
# Values from objects of a scripting host

The template value that an object stands for. Truth values and numbers count as such even if they
have markup of their own; any other object with markup is safe text. Integers that do not fit into
64 bits become doubles. Keys of a dict become texts, and texts that coincide are one name.
-/

namespace TagTemplate.Foreign

/-- The value of an integer: an integer if it fits, otherwise the nearest double if there is one. -/
def integerValue (n : Int) : Except Error Value :=
  if Number.fitsWord n then .ok (.int (Int64.ofInt n))
  else
    let x := Number.ofInt n
    if x.isInf then .error .overflow else .ok (.float x)

/-- The names and values of a converted dict, in order; the first error wins. -/
def nameEntries : List (Object × Except Error Value) → Except Error (List (String × Value))
  | [] => .ok []
  | (key, v) :: rest =>
    match v with
    | .ok v => (nameEntries rest).map ((key.keyText, v) :: ·)
    | .error e => .error e

namespace Object

mutual

/-- The value that an object stands for. -/
def toValue : Object → Except Error Value
  | none => .ok .null
  | bool b => .ok (.bool b)
  | int n => integerValue n
  | float x => .ok (.float x)
  | text s => .ok (.text s)
  | list items => (toValues items).map .list
  | tuple items => (toValues items).map .list
  | dict entries => (nameEntries (mergeKeys (toEntries entries))).map .ofEntries
  | markup _ (bool b) => .ok (.bool b)
  | markup _ (int n) => integerValue n
  | markup _ (float x) => .ok (.float x)
  | markup (.ok html) _ => .ok (.safe ⟨html⟩)
  | markup (.error reason) _ => .error (.value reason)
  | other typeName => .error (.value ("Unsupported attribute value of type '" ++ typeName ++ "'"))

/-- The values of several objects; the first error wins. -/
def toValues : List Object → Except Error (List Value)
  | [] => .ok []
  | a :: rest =>
    match a.toValue with
    | .ok v => (toValues rest).map (v :: ·)
    | .error e => .error e

/-- The entries of a dict, each with the value that it stands for or the reason against it. -/
def toEntries : List (Object × Object) → List (Object × Except Error Value)
  | [] => []
  | (key, a) :: rest => (key, a.toValue) :: toEntries rest

end

end Object

end TagTemplate.Foreign
