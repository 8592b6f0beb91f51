import TagTemplate.Expression.Tree
import TagTemplate.Tag.Invoke
import TagTemplate.Tag.Protocol

/-!
# Nodes

What a template is compiled into: texts, outputs, and calls of tags with their bodies.
-/

namespace TagTemplate.Template

/-- A node of a compiled template. -/
inductive Node where
  | text (content : String)
  | output (value : Expr)
  /-- A tag with the invocation of it. -/
  | call (tag : Tag) (invocation : Invocation (List Argument) (List Node))

end TagTemplate.Template
