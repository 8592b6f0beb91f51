import TagTemplate.Attribute.Item
import TagTemplate.Expression.Read

/-!
# Errors

What can go wrong when a tag is invoked and when a template is compiled or rendered. An error
holds its cause; `message` puts it into words. The two kinds of error contain each other: a tag
fails because the template in its body failed, and a template fails because a tag in it did.
-/

namespace TagTemplate

/-- What is wrong with the source at a place. -/
inductive SourceFault where
  /-- The text of arguments or of an expression cannot be read. -/
  | unreadable (expected : List Rule)
  /-- A quoted key is empty. -/
  | emptyKey
  /-- A number that is none. -/
  | invalidNumber (text : String)
  /-- A dict with a key that has no value. -/
  | unevenDict
  /-- A block without a name. -/
  | noTagName
  /-- No block where one was to begin. -/
  | noBlock
  /-- Arguments were asked for when no tag had been named. -/
  | noArguments
  /-- No block where one was to end. -/
  | noBlockEnd
  deriving DecidableEq

namespace SourceFault

/-- The fault in words. -/
def message : SourceFault → String
  | unreadable expected => Rule.expectation expected
  | emptyKey => ReadError.emptyKey.message
  | invalidNumber text =>
    "Invalid number '" ++ text ++ "': "
      ++ (if text.isEmpty then "cannot parse float from empty string" else "invalid float literal")
  | unevenDict => "Dict AST has uneven number of key-value children"
  | noTagName => "expected a tag name"
  | noBlock => "expected a block"
  | noArguments => "expected tag arguments"
  | noBlockEnd => "expected end of block"

/-- The fault that a failed reading shows. -/
def ofRead : ReadError → SourceFault
  | .expected _ rules => unreadable rules
  | .emptyKey => emptyKey

end SourceFault

mutual

/-- Why the invocation of a tag failed. -/
inductive TagError where
  /-- The arguments cannot be attributes. -/
  | invalidArgument (cause : ArgumentError)
  /-- The context cannot escape text or vouch for markup. -/
  | misconfigured (reason : String)
  /-- The tag gave up, for a reason of its own. -/
  | failed (reason : String)
  /-- The template in the body failed. -/
  | body (cause : TemplateError)

/-- Why a template cannot be compiled or rendered. -/
inductive TemplateError where
  | malformed (line column : Nat) (fault : SourceFault)
  | unknownTag (name : String) (line column : Nat)
  | unexpectedEndTag (name : String) (line column : Nat)
  | missingEndTag (name : String)
  | undefinedVariable (path : String)
  | unknownFilter (name : String)
  | filterFailed (name reason : String)
  | tag (cause : TagError)

end

/-- A place as it appears in messages. -/
def placeText (line column : Nat) : String :=
  "line " ++ toString line ++ ", column " ++ toString column

mutual

/-- The error of a tag in words. -/
def TagError.message : TagError → String
  | .invalidArgument cause => cause.message
  | .misconfigured reason => "Misconfigured render context: " ++ reason
  | .failed reason => reason
  | .body cause => cause.message

/-- The error of a template in words. -/
def TemplateError.message : TemplateError → String
  | .malformed line column fault =>
    "Syntax error at " ++ placeText line column ++ ": " ++ fault.message
  | .unknownTag name line column =>
    "Unknown tag '" ++ name ++ "' at " ++ placeText line column
  | .unexpectedEndTag name line column =>
    "Unexpected '" ++ name ++ "' at " ++ placeText line column
  | .missingEndTag name => "Missing '" ++ name ++ "'"
  | .undefinedVariable path => "Variable '" ++ path ++ "' is undefined"
  | .unknownFilter name => "Unknown filter '" ++ name ++ "'"
  | .filterFailed name reason => "Filter '" ++ name ++ "' failed: " ++ reason
  | .tag cause => cause.message

end

/-- The error of a template in which a tag failed. What went wrong in the body of the tag is the
template's own error, however deep the tag stands. -/
def TemplateError.ofTag : TagError → TemplateError
  | .body cause => cause
  | e => .tag e

end TagTemplate
