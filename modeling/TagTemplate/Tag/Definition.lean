import TagTemplate.Attribute.Item

/-!
# Tag definitions

A custom tag has a name, an element that it is written as, and a shape: a block tag has a body
and an end marker, an inline tag has neither. Both names are put into markup as they are, so they
are checked once, and the check is kept with the name.
-/

namespace TagTemplate

/-- A letter or underscore, then letters, digits, underscores and dashes, all of ASCII. -/
def isElementName (name : String) : Bool :=
  match name.toList with
  | [] => false
  | c :: cs => (c.isAlpha || c == '_') && cs.all fun c => c.isAlphanum || c == '_' || c == '-'

/-- A name that can stand in markup. -/
structure ElementName where
  text : String
  valid : isElementName text = true
  deriving DecidableEq

/-- Checks a name; `role` says what it is to name. -/
def ElementName.check (role name : String) : Except ArgumentError ElementName :=
  if h : isElementName name = true then .ok ⟨name, h⟩
  else if name.isEmpty then .error (.emptyName role)
  else .error (.invalidName role name)

/-- Name and shape of a custom tag. -/
structure TagDefinition where
  name : ElementName
  element : ElementName
  isBlock : Bool
  deriving DecidableEq

namespace TagDefinition

/-- A tag that is written as an element of its own name. -/
def create (name : String) (isBlock : Bool) : Except ArgumentError TagDefinition :=
  (ElementName.check "tag name" name).map fun n => ⟨n, n, isBlock⟩

/-- A tag with a body. -/
def block (name : String) : Except ArgumentError TagDefinition :=
  create name true

/-- The same tag, written as another element. -/
def withElement (d : TagDefinition) (element : String) : Except ArgumentError TagDefinition :=
  (ElementName.check "output element" element).map fun e => { d with element := e }

end TagDefinition

end TagTemplate
