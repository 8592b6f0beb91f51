import TagTemplate.Text.Quoted

/-!
# Shapes of descriptions

How the description of a compound thing is put together from the descriptions of its parts.
-/

namespace TagTemplate.Shape

/-- Parts between commas. -/
def commas (parts : List String) : String :=
  ", ".intercalate parts

/-- Parts in brackets. -/
def list (parts : List String) : String :=
  "[" ++ commas parts ++ "]"

/-- A name with parts in parentheses. -/
def call (name : String) (parts : List String) : String :=
  name ++ "(" ++ commas parts ++ ")"

/-- Two numbers in parentheses. -/
def pair (a b : Nat) : String :=
  call "" [toString a, toString b]

/-- Something that may be missing. -/
def option (part : Option String) : String :=
  match part with
  | some s => call "Some" [s]
  | none => "None"

/-- Quoted names with parts in braces. -/
def map (entries : List (String × String)) : String :=
  "\x7b" ++ commas (entries.map fun (name, part) => Text.quoted name ++ ": " ++ part) ++ "\x7d"

/-- The fields of a record. -/
def fields (parts : List (String × String)) : String :=
  commas (parts.map fun (name, part) => name ++ ": " ++ part)

/-- A record with all its fields. -/
def record (name : String) (parts : List (String × String)) : String :=
  name ++ " \x7b " ++ fields parts ++ " \x7d"

/-- A record of which only some fields are described. -/
def openRecord (name : String) (parts : List (String × String)) : String :=
  name ++ " \x7b " ++ fields parts ++ ", .. \x7d"

end TagTemplate.Shape
