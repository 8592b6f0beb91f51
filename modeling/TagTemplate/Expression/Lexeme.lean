/-!
# Lexemes

The words of the argument language. Each function splits the longest lexeme of its class off the
front of a text, and answers with the lexeme and what is left, or with nothing if the text does
not begin with one. Numbers, truth words and null words must not run into a name.
-/

namespace TagTemplate.Lexeme

/-- A split of a text into a lexeme and the rest. -/
abbrev Split := Option (List Char × List Char)

/-- The characters between lexemes. -/
def isGap (c : Char) : Bool :=
  c == ' ' || c == '\t' || c == '\r' || c == '\n'

/-- The characters that a name begins with. -/
def isNameStart (c : Char) : Bool :=
  c.isAlpha || c == '_' || c == '$'

/-- The characters that a name goes on with. -/
def isNameChar (c : Char) : Bool :=
  c.isAlphanum || c == '_' || c == '$'

/-- Does no name go on here? -/
def endsWord : List Char → Bool
  | [] => true
  | c :: _ => !isNameChar c

/-- Keeps a split only if the lexeme is a whole word. -/
def wholeWord (s : Split) : Split :=
  s.filter fun (_, rest) => endsWord rest

/-- A name. -/
def name? : List Char → Split
  | [] => none
  | c :: cs => if isNameStart c then some (c :: cs.takeWhile isNameChar, cs.dropWhile isNameChar)
    else none

/-- What a dashed name may go on with: name characters, and single dashes before name
characters. -/
def dashedRun : List Char → List Char × List Char
  | [] => ([], [])
  | '-' :: c :: cs =>
    if isNameChar c then
      let (taken, rest) := dashedRun cs
      ('-' :: c :: taken, rest)
    else ([], '-' :: c :: cs)
  | c :: cs =>
    if isNameChar c then
      let (taken, rest) := dashedRun cs
      (c :: taken, rest)
    else ([], c :: cs)

/-- A name with inner dashes. -/
def dashedName? : List Char → Split
  | [] => none
  | c :: cs =>
    if isNameStart c then
      let (taken, rest) := dashedRun cs
      some (c :: taken, rest)
    else none

/-- What a path may go on with inside a segment: characters of the segment, and dots before
further segments. A segment is a name or a number. -/
def pathRun (inNumber : Bool) : List Char → List Char × List Char
  | [] => ([], [])
  | '.' :: c :: cs =>
    if isNameStart c then
      let (taken, rest) := pathRun false cs
      ('.' :: c :: taken, rest)
    else if c.isDigit then
      let (taken, rest) := pathRun true cs
      ('.' :: c :: taken, rest)
    else ([], '.' :: c :: cs)
  | c :: cs =>
    if (if inNumber then c.isDigit else isNameChar c) then
      let (taken, rest) := pathRun inNumber cs
      (c :: taken, rest)
    else ([], c :: cs)

/-- A dotted path that begins with a name. -/
def path? : List Char → Split
  | [] => none
  | c :: cs =>
    if isNameStart c then
      let (taken, rest) := pathRun false cs
      some (c :: taken, rest)
    else none

/-- One or more digits. -/
def digits? (cs : List Char) : Split :=
  match cs.takeWhile Char.isDigit with
  | [] => none
  | ds => some (ds, cs.dropWhile Char.isDigit)

/-- One or more digits, after a minus or not. -/
def signedDigits? : List Char → Split
  | '-' :: cs => (digits? cs).map fun (ds, rest) => ('-' :: ds, rest)
  | cs => digits? cs

/-- A whole number. -/
def int? (cs : List Char) : Split :=
  wholeWord (signedDigits? cs)

/-- A number with a fraction. -/
def float? (cs : List Char) : Split :=
  wholeWord do
    let (whole, rest) ← signedDigits? cs
    match rest with
    | '.' :: rest => (digits? rest).map fun (fraction, rest) => (whole ++ '.' :: fraction, rest)
    | _ => none

/-- One of a list of words. -/
def word? (words : List String) (cs : List Char) : Split :=
  wholeWord (words.findSome? fun w =>
    if w.toList.isPrefixOf cs then some (w.toList, cs.drop w.toList.length) else none)

/-- A truth word. -/
def boolean? : List Char → Split :=
  word? ["true", "false", "True", "False"]

/-- A null word. -/
def null? : List Char → Split :=
  word? ["none", "None", "null"]

/-- The inside of a string: up to the quote, where a backslash takes the next character with it. -/
def quotedRun (quote : Char) : List Char → List Char × List Char
  | [] => ([], [])
  | '\\' :: c :: cs =>
    let (taken, rest) := quotedRun quote cs
    ('\\' :: c :: taken, rest)
  | c :: cs =>
    if c = quote ∨ c = '\\' then ([], c :: cs)
    else
      let (taken, rest) := quotedRun quote cs
      (c :: taken, rest)

/-- The inside of a string in the given quotes, if it is closed. -/
def stringIn? (quote : Char) (cs : List Char) : Split :=
  match cs with
  | [] => none
  | c :: cs =>
    if c = quote then
      match quotedRun quote cs with
      | (inside, d :: rest) => if d = quote then some (inside, rest) else none
      | (_, []) => none
    else none

/-- A string in double or single quotes, with its quotes. -/
def string? (cs : List Char) : Split :=
  match stringIn? '"' cs with
  | some (inside, rest) => some ('"' :: inside ++ ['"'], rest)
  | none => (stringIn? '\'' cs).map fun (inside, rest) => ('\'' :: inside ++ ['\''], rest)

/-- The text that the inside of a string means. -/
def unescape : List Char → List Char
  | [] => []
  | '\\' :: c :: cs =>
    (if c = 'n' then '\n' else if c = 't' then '\t' else if c = 'r' then '\r' else c)
      :: unescape cs
  | c :: cs => c :: unescape cs

/-- The text that a string with its quotes means. -/
def meaning (literal : List Char) : List Char :=
  unescape (literal.drop 1).dropLast

end TagTemplate.Lexeme
