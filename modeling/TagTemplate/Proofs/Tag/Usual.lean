import TagTemplate.Proofs.Success
import TagTemplate.Tag.Invoke

/-!
# Tags that write their element

The usual tag writes its element around its body. What an invocation of it does is then a sequence of
three steps, of which the first two can fail: its arguments become items, its body is rendered, and the
items are written into the start tag.

> `Tag.invoke_of_isUsual`: the three steps in their order.
-/

namespace TagTemplate

/-- The tag writes its element around its body, with an escaper of its own or not. -/
def Tag.IsUsual (tag : Tag) : Prop :=
  tag.render = renderElement tag.definition.element.text

theorem Tag.isUsual_ofDefinition (d : TagDefinition) (escaper : Option Escaper) :
    (Tag.ofDefinition d escaper).IsUsual :=
  rfl

/-- The invocation of a tag that writes its element. -/
theorem Tag.invoke_of_isUsual {tag : Tag} (htag : tag.IsUsual) (ctx : RenderContext)
    (values : List Value) (body : Body) :
    tag.invoke ctx values body = (do
      let items ← (Attribute.Item.ofValues values).mapError TagError.invalidArgument
      let content ← body.resolve
      pure ((tag.escaperIn ctx).markSafe (elementText tag.definition.element.text
        (Attribute.write (tag.escaperIn ctx) items) content))) := by
  unfold Tag.invoke Tag.prepare
  rw [htag]
  cases Attribute.Item.ofValues values with
  | error e => rfl
  | ok items =>
    show ((body.resolve).map _).map _ = (do let content ← body.resolve; _)
    cases body.resolve <;> rfl

end TagTemplate
