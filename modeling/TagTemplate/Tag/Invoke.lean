import TagTemplate.Attribute.Text
import TagTemplate.Tag.Body
import TagTemplate.Tag.Definition

/-!
# Tags

A tag turns evaluated arguments and a body into markup. Invoking it sorts the arguments into
attributes, renders, and marks the result as safe, all with the tag's own escaper if it has one.
The usual tag writes one element around its body.
-/

namespace TagTemplate

/-- What a tag can see of the render it is part of. -/
structure RenderContext where
  escaper : Escaper
  /-- The variables of the template. -/
  locals : Value

/-- An element with its attributes and content. -/
def elementText (element attributes content : String) : String :=
  "<" ++ element ++ (if attributes.isEmpty then "" else " " ++ attributes) ++ ">" ++ content
    ++ "</" ++ element ++ ">"

/-- Renders an element around the body. -/
def renderElement (element : String) (ctx : RenderContext) (items : List Attribute.Item) :
    Rendering :=
  .ofBody fun body => body.map (elementText element (Attribute.write ctx.escaper items))

/-- A custom tag. -/
structure Tag where
  definition : TagDefinition
  /-- Used in place of the escaper of the context. -/
  escaper : Option Escaper
  render : RenderContext → List Attribute.Item → Rendering

namespace Tag

/-- The tag that writes its element around its body. -/
def ofDefinition (definition : TagDefinition) (escaper : Option Escaper) : Tag where
  definition := definition
  escaper := escaper
  render := renderElement definition.element.text

/-- The name of the tag. -/
def name (tag : Tag) : String :=
  tag.definition.name.text

/-- The escaper that an invocation of the tag uses. -/
def escaperIn (tag : Tag) (ctx : RenderContext) : Escaper :=
  tag.escaper.getD ctx.escaper

/-- An invocation up to the point where the body is needed. -/
def prepare (tag : Tag) (ctx : RenderContext) (args : List Value) : Except TagError Rendering :=
  match Attribute.Item.ofValues args with
  | .ok items => .ok (tag.render { ctx with escaper := tag.escaperIn ctx } items)
  | .error e => .error (.invalidArgument e)

/-- How often an invocation has a body rendered: once if the body is rendered on demand and the tag
asks for it, otherwise never. -/
def bodyRenders (tag : Tag) (ctx : RenderContext) (args : List Value) (body : Body) : Nat :=
  match tag.prepare ctx args with
  | .ok rendering => if rendering.asksForBody && body.isDeferred then 1 else 0
  | .error _ => 0

/-- Renders one invocation and marks the markup as safe. -/
def invoke (tag : Tag) (ctx : RenderContext) (args : List Value) (body : Body) :
    Except TagError SafeText :=
  match tag.prepare ctx args with
  | .ok rendering => (rendering.run body).map (tag.escaperIn ctx).markSafe
  | .error e => .error e

end Tag

end TagTemplate
