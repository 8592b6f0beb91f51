import TagTemplate.Html.Escape

/-!
# Escapers and safe text

Text that may be inserted into markup as it is has a type of its own. An escaper is what a caller
passes in to make text fit for markup and to vouch for finished markup.
-/

namespace TagTemplate

/-- Text that is markup already and is never escaped. -/
structure SafeText where
  text : String
  deriving DecidableEq

namespace SafeText

/-- Holds no characters at all. -/
def isEmpty (s : SafeText) : Bool :=
  s.text.isEmpty

end SafeText

/-- The two abilities that rendering asks for. -/
structure Escaper where
  /-- Makes a text fit for markup. -/
  escape : String → String
  /-- Vouches for markup. -/
  markSafe : String → SafeText

/-- Writes the special characters of markup as entities, and vouches for markup as it stands. -/
def Escaper.html : Escaper where
  escape := Html.escape
  markSafe := SafeText.mk

end TagTemplate
