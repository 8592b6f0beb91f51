import TagTemplate.Inspect.Shape
import TagTemplate.Tag.Invoke

/-!
# Descriptions of values

Values, bodies and render contexts as a person who looks into a render sees them. Unlike the text
that a value prints as, its description tells values of different kinds apart.
-/

namespace TagTemplate

/-- The description of safe text. -/
def SafeText.describe (s : SafeText) : String :=
  Shape.call "SafeString" [Text.quoted s.text]

mutual

/-- The description of a value. -/
def Value.describe : Value → String
  | .null => "Null"
  | .bool b => Shape.call "Bool" [Value.boolText b]
  | .int n => Shape.call "Int" [Value.intText n]
  | .float x => Shape.call "Float" [Number.write Number.described x]
  | .text s => Shape.call "Str" [Text.quoted s]
  | .safe s => Shape.call "Safe" [s.describe]
  | .list items => Shape.call "List" [Shape.list (Value.describeItems items)]
  | .map entries => Shape.call "Map" [Shape.map (Value.describeEntries entries)]

/-- The descriptions of the items of a list. -/
def Value.describeItems : List Value → List String
  | [] => []
  | v :: rest => v.describe :: Value.describeItems rest

/-- The descriptions of the entries of a map. -/
def Value.describeEntries : List (String × Value) → List (String × String)
  | [] => []
  | (name, v) :: rest => (name, v.describe) :: Value.describeEntries rest

end

/-- The description of a body. What is rendered on demand is not shown. -/
def Body.describe : Body → String
  | .empty => "Empty"
  | .text s => Shape.call "Text" [Text.quoted s]
  | .deferred _ => Shape.call "Lazy" [".."]

/-- The description of a render context. -/
def RenderContext.describe (ctx : RenderContext) : String :=
  Shape.openRecord "RenderContext" [("locals", ctx.locals.describe)]

end TagTemplate
