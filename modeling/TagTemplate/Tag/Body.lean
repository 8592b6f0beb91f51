import TagTemplate.Error

/-!
# Bodies and renderings

The body of a block tag is rendered only when the tag asks for it, and a tag can ask for it once.
That is the shape of a `Rendering`: it is either finished without the body, or goes on from what
the body gives.
-/

namespace TagTemplate

/-- The content of a tag. -/
inductive Body where
  | empty
  | text (s : String)
  /-- Content that is rendered on demand. -/
  | deferred (render : Unit → Except TagError String)

namespace Body

/-- The text of a body, which may fail to render. -/
def resolve : Body → Except TagError String
  | empty => .ok ""
  | text s => .ok s
  | deferred render => render ()

/-- Is the body rendered on demand? -/
def isDeferred : Body → Bool
  | deferred _ => true
  | _ => false

/-- A body that may be missing. -/
def ofOption : Option String → Body
  | none => empty
  | some s => text s

end Body

/-- How the markup of a tag comes about. -/
inductive Rendering where
  /-- Without the body. -/
  | done (result : Except TagError String)
  /-- From the body, or from its failure. -/
  | ofBody (next : Except TagError String → Except TagError String)

namespace Rendering

/-- Finishes a rendering with a body. -/
def run (body : Body) : Rendering → Except TagError String
  | done result => result
  | ofBody next => next body.resolve

/-- Does the rendering ask for the body? -/
def asksForBody : Rendering → Bool
  | done _ => false
  | ofBody _ => true

/-- Changes the markup that a rendering gives. -/
def map (f : String → String) : Rendering → Rendering
  | done result => done (result.map f)
  | ofBody next => ofBody fun body => (next body).map f

end Rendering

end TagTemplate
