import TagTemplate.Position
import TagTemplate.Template.Piece
import TagTemplate.Text.Blank

/-!
# Parts of a template

What compiling sees of a source: its pieces without the comments, where every marked piece knows
the byte offset at which its content begins. A block begins with the name of a tag.
-/

namespace TagTemplate.Template

/-- A part of a template. -/
inductive Part where
  | text (content : String)
  | output (content : String) (offset : Nat)
  | block (content : String) (offset : Nat)
  deriving DecidableEq

namespace Part

/-- The parts that pieces give when the first of them stands at `offset`. -/
def ofPieces (offset : Nat) : List Piece → List Part
  | [] => []
  | p :: rest =>
    let more := ofPieces (offset + byteSize p.source) rest
    match p with
    | .text cs => text (String.ofList cs) :: more
    | .marked .output cs => output (String.ofList cs) (offset + byteSize Mark.output.opener) :: more
    | .marked .block cs => block (String.ofList cs) (offset + byteSize Mark.block.opener) :: more
    | .marked .comment _ => more

/-- The parts of a source. -/
def ofSource (source : String) : List Part :=
  ofPieces 0 (pieces source.toList)

/-- The offset at which the content of a marked part begins. -/
def offset? : Part → Option Nat
  | text _ => none
  | output _ offset => some offset
  | block _ offset => some offset

end Part

/-- The content of a block: the name of its tag and the arguments, which begin `offset` bytes after
the content. -/
structure BlockHead where
  name : String
  args : String
  offset : Nat
  deriving DecidableEq

/-- Splits the name off the content of a block: after any blanks a letter or underscore, then
letters, digits and underscores, all of ASCII. -/
def BlockHead.read? (content : String) : Option BlockHead :=
  let cs := content.toList
  let blanks := cs.takeWhile Text.isBlank
  match cs.dropWhile Text.isBlank with
  | [] => none
  | c :: rest =>
    if c.isAlpha || c == '_' then
      let isInner (c : Char) : Bool := c.isAlphanum || c == '_'
      let name := c :: rest.takeWhile isInner
      some ⟨String.ofList name, String.ofList (rest.dropWhile isInner), byteSize (blanks ++ name)⟩
    else none

end TagTemplate.Template
