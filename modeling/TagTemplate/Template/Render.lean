import TagTemplate.Expression.Evaluate
import TagTemplate.Template.Compile

/-!
# Rendering

The text that compiled nodes give with the variables of one render. Nodes are rendered in order
and the first error ends the render. The body of a tag is rendered when the tag asks for it, in the
scope of the whole template; the tag's own escaper does not reach into it.
-/

namespace TagTemplate

namespace Template

/-- The text of an output. Safe text stands as it is. -/
def outputText (scope : Scope) : Value → String
  | .safe s => s.text
  | v => if scope.env.config.autoescape then scope.escaper.escape v.display else v.display

mutual

/-- The text of a node. -/
def renderNode (scope : Scope) : Node → Except TemplateError String
  | .text content => .ok content
  | .output value => (value.eval scope).map (outputText scope)
  | .call tag ⟨_, args, body⟩ => do
    let values ← Argument.evalList scope args
    let content := match body with
      | some nodes => Body.deferred fun _ => (renderNodes scope nodes).mapError TagError.body
      | none => Body.empty
    let markup ← (tag.invoke ⟨scope.escaper, scope.locals⟩ values content).mapError
      TemplateError.ofTag
    .ok markup.text

/-- The text of several nodes. -/
def renderNodes (scope : Scope) : List Node → Except TemplateError String
  | [] => .ok ""
  | node :: rest => do
    let text ← renderNode scope node
    let more ← renderNodes scope rest
    .ok (text ++ more)

end

end Template

namespace Environment

/-- Renders compiled nodes. Without an escaper nothing is rendered. -/
def renderNodes (env : Environment) (nodes : List Template.Node) (locals : Value) :
    Except TemplateError String :=
  match env.escaper with
  | some escaper => Template.renderNodes ⟨env, locals, escaper⟩ nodes
  | none => .error (.tag (.misconfigured "the environment has no escaper to render with"))

/-- Compiles and renders a source. -/
def render (env : Environment) (source : String) (locals : Value) : Except TemplateError String := do
  let nodes ← env.compile source
  env.renderNodes nodes locals

end Environment

/-- Renders a source in the standard environment with the given tags. -/
def renderWithTags (tags : List Tag) (source : String) (locals : Value) :
    Except TemplateError String :=
  (tags.foldl Environment.addTag Environment.standard).render source locals

end TagTemplate
