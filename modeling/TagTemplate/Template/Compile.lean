import TagTemplate.Environment
import TagTemplate.Template.Node
import TagTemplate.Template.Part

/-!
# Compiling

A template is compiled by going over its parts once. Texts and outputs are nodes by themselves;
a block names a tag, whose definition then drives the parser to take the arguments and the body.

The state of the parser is what is left of the parts, and the arguments of the block whose name
was taken last, until they are read. A step that fails leaves the state as it is at that moment,
so that a host which goes on after an error finds the parser where it stopped.
-/

namespace TagTemplate.Template

/-- The arguments of a block and their offset in the source. -/
structure PendingArguments where
  text : String
  offset : Nat

/-- What a parser has still to do. -/
structure ParserState where
  rest : List Part
  pending : Option PendingArguments

/-- A step of a parser. -/
abbrev Parse := EStateM TemplateError ParserState

/-- A parser for a source, in an environment. -/
structure Parser where
  env : Environment
  source : String

namespace Parser

/-- The state at the beginning of a source. -/
def start (p : Parser) : ParserState :=
  ⟨Part.ofSource p.source, none⟩

/-- A fault at a byte offset of the source. -/
def faultAt (p : Parser) (offset : Nat) (fault : SourceFault) : TemplateError :=
  let place := positionAt p.source.toList offset
  .malformed place.line place.column fault

/-- A text that begins at `offset` could not be read. -/
def readFault (p : Parser) (offset : Nat) (e : ReadError) : TemplateError :=
  p.faultAt (offset + e.offset?.getD 0) (.ofRead e)

/-- A fault at the next part: at its content if it is marked, otherwise at the end of the source. -/
def unexpected (p : Parser) (s : ParserState) (fault : SourceFault) : TemplateError :=
  p.faultAt ((s.rest.head?.bind Part.offset?).getD p.source.utf8ByteSize) fault

/-- Takes the name of the next block and remembers its arguments. The block stays the next part. -/
def nextToken (p : Parser) : Parse String := do
  let s ← get
  match s.rest with
  | .block content offset :: _ =>
    match BlockHead.read? content with
    | some head =>
      set { s with pending := some ⟨head.args, offset + head.offset⟩ }
      pure head.name
    | none => throw (p.unexpected s .noTagName)
  | _ => throw (p.unexpected s .noBlock)

/-- Reads the remembered arguments, which are then forgotten. -/
def readArguments (p : Parser) : Parse (List Argument) := do
  let s ← get
  match s.pending with
  | some pending =>
    set { s with pending := none }
    match Argument.readList pending.text with
    | .ok args => pure args
    | .error e => throw (p.readFault pending.offset e)
  | none => throw (p.unexpected s .noArguments)

/-- Moves past the next part, which must be a block. -/
def leaveBlock (p : Parser) : Parse Unit := do
  let s ← get
  match s.rest with
  | .block _ _ :: rest => set { s with rest := rest }
  | _ => throw (p.unexpected s .noBlockEnd)

/-- The steps that tags are parsed with, where bodies are read by `readBody`. -/
def hostWith (p : Parser) (readBody : String → Parse (List Node)) :
    HostParser Parse (List Argument) (List Node) where
  nextToken := p.nextToken
  readArguments := p.readArguments
  leaveBlock _ := p.leaveBlock
  readUntil := readBody

/-- The tag of a block that does not close anything. -/
def tagOf (p : Parser) (name : String) (offset : Nat) : Except TemplateError Tag :=
  match p.env.tag? name with
  | some tag => .ok tag
  | none =>
    let place := positionAt p.source.toList offset
    if name.startsWith "end" then .error (.unexpectedEndTag name place.line place.column)
    else .error (.unknownTag name place.line place.column)

/-- At the end of the parts, an end marker that was awaited is missing. -/
def atEnd (awaited : Option String) : Parse (List Node) :=
  match awaited with
  | some name => throw (.missingEndTag name)
  | none => pure []

/-- Reads one node and then further ones with `more`, up to the block named `awaited` or to the end
of the parts. The body of a tag is read by `readBody`. -/
def round (p : Parser) (readBody : String → Parse (List Node)) (more : Parse (List Node))
    (awaited : Option String) : Parse (List Node) := do
  let s ← get
  match s.rest with
  | [] => atEnd awaited
  | .text content :: rest =>
    set { s with rest := rest }
    let nodes ← more
    pure (.text content :: nodes)
  | .output content offset :: rest =>
    match Expr.read content with
    | .ok value =>
      set { s with rest := rest }
      let nodes ← more
      pure (.output value :: nodes)
    | .error e => throw (p.readFault offset e)
  | .block content offset :: _ =>
    match BlockHead.read? content with
    | none => throw (p.faultAt offset .noTagName)
    | some head =>
      if awaited = some head.name then pure []
      else match p.tagOf head.name offset with
        | .error e => throw e
        | .ok tag =>
          let invocation ← tag.definition.parse (p.hostWith readBody)
          let nodes ← more
          pure (.call tag invocation :: nodes)

/-- Reads nodes up to the block named `awaited`, or to the end of the parts. Every node takes at
least one part, so `n` parts need at most `n` rounds. -/
def nodesWithin (p : Parser) : (n : Nat) → (awaited : Option String) → Parse (List Node)
  | 0, awaited => atEnd awaited
  | n + 1, awaited =>
    p.round (fun name => p.nodesWithin n (some name)) (p.nodesWithin n awaited) awaited

/-- Reads nodes up to the block named `awaited`, or to the end of the parts. -/
def nodes (p : Parser) (awaited : Option String) : Parse (List Node) := do
  let s ← get
  p.nodesWithin (s.rest.length + 1) awaited

/-- The steps that tags are parsed with. -/
def host (p : Parser) : HostParser Parse (List Argument) (List Node) :=
  p.hostWith fun name => p.nodes (some name)

end Parser

end Template

/-- Compiles a source. -/
def Environment.compile (env : Environment) (source : String) :
    Except TemplateError (List Template.Node) :=
  let p : Template.Parser := ⟨env, source⟩
  match (p.nodes none).run p.start with
  | .ok nodes _ => .ok nodes
  | .error e _ => .error e

end TagTemplate
