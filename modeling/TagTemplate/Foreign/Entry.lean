import TagTemplate.Foreign.Convert
import TagTemplate.Tag.Invoke

/-!
# Entry points of a scripting host

A scripting host can write an attribute list and render one invocation of a tag, both with the
escaper for markup.
-/

namespace TagTemplate.Foreign

/-- Writes an attribute list. -/
def writeAttributes (attributes : Object) : Except Error String :=
  match attributes.toValue with
  | .ok v => (Attribute.writeValue .html v).mapError fun e => .value e.message
  | .error e => .error e

/-- The arguments of a tag, which must be a list. -/
def arguments (attributes : Object) : Except Error (List Value) :=
  match attributes.toValue with
  | .ok (.list items) => .ok items
  | .ok v => .error (.value (ArgumentError.notASequence v.kind).message)
  | .error e => .error e

/-- Renders one invocation of the tag of this name. The name is checked before the attributes. -/
def renderTag (name : String) (attributes : Object) (body : Option String) (isBlock : Bool) :
    Except Error String := do
  let definition ← (TagDefinition.create name isBlock).mapError fun e => .value e.message
  let args ← arguments attributes
  let markup ← ((Tag.ofDefinition definition none).invoke ⟨.html, .null⟩ args
    (.ofOption body)).mapError fun e => .value e.message
  .ok markup.text

end TagTemplate.Foreign
