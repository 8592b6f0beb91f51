import TagTemplate.Filter
import TagTemplate.Tag.Invoke

/-!
# Environments

The tags and filters that templates may use, the escaper that they are rendered with, and the
choices that apply to every render.
-/

namespace TagTemplate

/-- Choices that apply to every render. -/
structure Config where
  /-- Escape the text of outputs that is not marked as safe. -/
  autoescape : Bool
  /-- Fail on undefined variables, which are null otherwise. -/
  throwOnUndefined : Bool
  deriving DecidableEq

/-- Outputs are escaped, and undefined variables are null. -/
def Config.standard : Config where
  autoescape := true
  throwOnUndefined := false

/-- What templates are compiled and rendered in. -/
structure Environment where
  config : Config
  tags : Entries Tag
  filters : Entries Filter
  escaper : Option Escaper

namespace Environment

/-- No tags, no filters and no escaper, without which nothing can be rendered. -/
def empty : Environment where
  config := .standard
  tags := []
  filters := []
  escaper := none

/-- No tags, the built-in filters, and the escaper for markup. -/
def standard : Environment :=
  { empty with filters := Filter.builtin, escaper := some .html }

/-- Registers a tag under its name, in place of one that had this name. -/
def addTag (env : Environment) (tag : Tag) : Environment :=
  { env with tags := Entries.insert tag.name tag env.tags }

/-- The tag of a name. -/
def tag? (env : Environment) (name : String) : Option Tag :=
  Entries.get? name env.tags

/-- Registers a filter, in place of one that had this name. -/
def addFilter (env : Environment) (name : String) (filter : Filter) : Environment :=
  { env with filters := Entries.insert name filter env.filters }

/-- Applies the filter of a name. -/
def applyFilter (env : Environment) (name : String) (v : Value) (args : List Value)
    (escaper : Escaper) : Except TemplateError Value :=
  match Entries.get? name env.filters with
  | some filter => filter v args escaper
  | none => .error (.unknownFilter name)

end Environment

end TagTemplate
