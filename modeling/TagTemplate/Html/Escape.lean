/-!
# Escaped text

The five characters that mean something to a reader of markup are written as entities, each once
and in place, so that the text can stand between tags and inside a quoted attribute value.
`unescape` reads the five entities back from left to right and leaves everything else alone.
-/

namespace TagTemplate.Html

/-- How one character is written in markup. -/
def escapeChar : Char → List Char
  | '&' => ['&', 'a', 'm', 'p', ';']
  | '"' => ['&', 'q', 'u', 'o', 't', ';']
  | '\'' => ['&', '#', '3', '9', ';']
  | '<' => ['&', 'l', 't', ';']
  | '>' => ['&', 'g', 't', ';']
  | c => [c]

/-- Escapes a list of characters. -/
def escapeChars (cs : List Char) : List Char :=
  cs.flatMap escapeChar

/-- Reads the five entities back. -/
def unescapeChars : List Char → List Char
  | '&' :: 'a' :: 'm' :: 'p' :: ';' :: rest => '&' :: unescapeChars rest
  | '&' :: 'q' :: 'u' :: 'o' :: 't' :: ';' :: rest => '"' :: unescapeChars rest
  | '&' :: '#' :: '3' :: '9' :: ';' :: rest => '\'' :: unescapeChars rest
  | '&' :: 'l' :: 't' :: ';' :: rest => '<' :: unescapeChars rest
  | '&' :: 'g' :: 't' :: ';' :: rest => '>' :: unescapeChars rest
  | c :: rest => c :: unescapeChars rest
  | [] => []

/-- Escapes a text. -/
def escape (text : String) : String :=
  String.ofList (escapeChars text.toList)

/-- Reads a text with entities. -/
def unescape (text : String) : String :=
  String.ofList (unescapeChars text.toList)

@[simp] theorem escapeChars_nil : escapeChars [] = [] := rfl

@[simp] theorem escapeChars_cons (c : Char) (cs : List Char) :
    escapeChars (c :: cs) = escapeChar c ++ escapeChars cs := rfl

@[simp] theorem escapeChars_append (as bs : List Char) :
    escapeChars (as ++ bs) = escapeChars as ++ escapeChars bs :=
  List.flatMap_append

@[simp] theorem toList_escape (text : String) : (escape text).toList = escapeChars text.toList := by
  simp [escape]

end TagTemplate.Html
