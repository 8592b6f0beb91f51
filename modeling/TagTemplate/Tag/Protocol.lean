import TagTemplate.Tag.Definition

/-!
# Parsing an invocation

A tag is parsed out of a template by its host: the host reads tokens, arguments and bodies, and
the tag only says in which order. The order depends on nothing but the shape of the tag, and the
first step that fails ends the parse.
-/

namespace TagTemplate

/-- One invocation of a tag, before it is evaluated. -/
structure Invocation (α β : Type) where
  /-- The name of the tag as it is written. -/
  name : String
  args : α
  /-- The body of a block tag. -/
  body : Option β

/-- The steps that a host offers to the tags in its templates. -/
structure HostParser (m : Type → Type) (α β : Type) where
  /-- Takes the token that names the tag. -/
  nextToken : m String
  /-- Reads the arguments up to the end of the block. -/
  readArguments : m α
  /-- Moves past the end of the block. The name is that of the tag that is being opened; there is
  none when a tag is being closed. -/
  leaveBlock : Option String → m Unit
  /-- Reads everything up to the block with this name. -/
  readUntil : String → m β

/-- The name of the block that closes a tag. -/
def closingName (name : String) : String :=
  "end" ++ name

/-- Parses one invocation of a tag. -/
def TagDefinition.parse {m : Type → Type} [Monad m] {α β : Type} (d : TagDefinition)
    (host : HostParser m α β) : m (Invocation α β) := do
  let name ← host.nextToken
  let args ← host.readArguments
  host.leaveBlock (some name)
  if d.isBlock then
    let body ← host.readUntil (closingName name)
    host.leaveBlock none
    pure ⟨name, args, some body⟩
  else
    pure ⟨name, args, none⟩

end TagTemplate
