import TagTemplate.Environment
import TagTemplate.Inspect.Shape
import TagTemplate.Template.Node
import TagTemplate.Value

/-!
# Descriptions of templates

Environments, expressions and compiled nodes as a person who looks into a template sees them.
-/

namespace TagTemplate

/-- The fields that describe a span. -/
def Span.fields (s : Span) : List (String × String) :=
  [("start_index", toString s.start.offset), ("end_index", toString s.stop),
    ("line_col", Shape.pair s.start.line s.start.column)]

/-- The description of a token. -/
def Token.describe (t : Token) : String :=
  Shape.record "TagToken" (("token", Text.quoted t.text) :: t.span.fields)

/-- The description of a kind of expression. -/
def Expr.Kind.describe : Expr.Kind → String
  | .list => "List"
  | .dict => "Dict"
  | .int => "Int"
  | .float => "Float"
  | .bool => "Bool"
  | .null => "Null"
  | .path => "Variable"
  | .text => "String"
  | .sum => "Sum"

mutual

/-- The description of an expression. -/
def Expr.describe : Expr → String
  | .node token children kind filters span =>
    Shape.record "TagValue"
      ([("token", token.describe), ("children", Shape.list (Expr.describeAll children)),
        ("kind", kind.describe), ("filters", Shape.list (Expr.describeFilters filters))]
        ++ span.fields)

/-- The descriptions of several expressions. -/
def Expr.describeAll : List Expr → List String
  | [] => []
  | e :: rest => e.describe :: Expr.describeAll rest

/-- The descriptions of filters. -/
def Expr.describeFilters : List (FilterCall Expr) → List String
  | [] => []
  | ⟨name, args, span⟩ :: rest =>
    Shape.record "TagValueFilter"
      ([("token", name.describe), ("args", Shape.list (Expr.describeAll args))] ++ span.fields)
      :: Expr.describeFilters rest

end

/-- The description of an argument. -/
def Argument.describe (a : Argument) : String :=
  Shape.record "TagAttr"
    ([("key", Shape.option (a.key.map Token.describe)), ("value", a.value.describe)]
      ++ a.span.fields)

mutual

/-- The description of a node. Of a tag only the invocation is shown. -/
def Template.Node.describe : Template.Node → String
  | .text content => Shape.call "Text" [Text.quoted content]
  | .output value => Shape.call "Output" [value.describe]
  | .call _ ⟨name, args, body⟩ =>
    let content := match body with
      | some nodes => Shape.option (some (Shape.list (Template.Node.describeAll nodes)))
      | none => Shape.option none
    Shape.openRecord "Call"
      [("invocation", Shape.record "Invocation"
        [("name", Text.quoted name), ("args", Shape.list (args.map Argument.describe)),
          ("body", content)])]

/-- The descriptions of several nodes. -/
def Template.Node.describeAll : List Template.Node → List String
  | [] => []
  | node :: rest => node.describe :: Template.Node.describeAll rest

end

/-- The description of a compiled template. -/
def Template.describe (nodes : List Template.Node) : String :=
  Shape.openRecord "Template" [("nodes", Shape.list (Template.Node.describeAll nodes))]

/-- The description of the choices for a render. -/
def Config.describe (c : Config) : String :=
  Shape.record "EnvironmentConfig"
    [("autoescape", Value.boolText c.autoescape),
      ("throw_on_undefined", Value.boolText c.throwOnUndefined)]

/-- Names in alphabetical order, quoted. -/
def Shape.names (names : List String) : String :=
  list (names.mergeSort.map Text.quoted)

/-- The description of an environment. Tags and filters appear by name, in alphabetical order. -/
def Environment.describe (env : Environment) : String :=
  Shape.record "Environment"
    [("config", env.config.describe), ("tags", Shape.names (Entries.names env.tags)),
      ("filters", Shape.names (Entries.names env.filters)),
      ("has_escaper", Value.boolText env.escaper.isSome)]

end TagTemplate
