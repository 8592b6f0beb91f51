import TagTemplate.Expression.Reader

/-!
# The argument language

The rules of argument lists and expressions, each as a reader. An expression inside brackets is
read by the reader that a rule is given as `inner`; `expressionAt n` ties the knot for brackets
that are nested less than `n` deep. Every bracket takes a character, so a text of `n` characters
is read by `expressionAt (n + 1)` as if there were no bound.

Gaps are allowed between the parts of a rule, and a part that may be missing leaves the gap before
it taken; where that gap ends an expression, the recorded span stops before it.
-/

namespace TagTemplate.Grammar

open Reader

/-- The text without the gap at its end. -/
def trimGap (cs : List Char) : List Char :=
  (cs.reverse.dropWhile Lexeme.isGap).reverse

/-- A token for a piece of source, without the gap at its end. -/
def tokenOf (start : Position) (text : List Char) : Token :=
  ⟨String.ofList (trimGap text), .over start (trimGap text)⟩

/-- A lexeme under the name of its rule. -/
def lexical (rule : Rule) (split : List Char → Lexeme.Split) : Reader (List Char) :=
  named rule (lexeme split)

/-- A string with its quotes. -/
def stringLiteral : Reader (List Char) :=
  lexical .stringLiteral Lexeme.string?

/-- A string, or a lexeme that stands for itself; gives the text that it means. -/
def stringOr (plain : Reader (List Char)) : Reader (List Char) :=
  (Lexeme.meaning <$> stringLiteral) <|> plain

/-- Reads a name of something with `p` and gives it as a token. -/
def nameToken (p : Reader (List Char)) : Reader Token := do
  let (text, start, source) ← located p
  pure ⟨String.ofList text, .over start source⟩

/-- The key of an argument. -/
def key : Reader Token :=
  named .key (nameToken (stringOr (lexical .attrName Lexeme.dashedName?)))

/-- The key of a dict entry. -/
def dictKey : Reader Token :=
  named .dictKey (nameToken (stringOr (lexical .name Lexeme.name?)))

/-- An expression that is a single lexeme. -/
def literal (kind : Expr.Kind) (p : Reader (List Char)) : Reader Expr := do
  let (_, start, source) ← located p
  pure (.plain (tokenOf start source) kind [])

/-- A string as an expression; its token holds the text that it means. -/
def textLiteral : Reader Expr := do
  let (literal, start, source) ← located stringLiteral
  pure (.plain ⟨String.ofList (Lexeme.meaning literal), .over start source⟩ .text [])

/-- Things read by `item` between two brackets and separated by commas; the last may be followed
by a comma too. -/
def bracketed {α : Type} (opening closing : Char) (item : Reader α) : Reader (List α) := do
  let _ ← symbol opening
  let _ ← gap
  let items ← optional do
    let first ← item
    let _ ← gap
    let more ← spaced do
      let _ ← symbol ','
      let _ ← gap
      item
    let _ ← gap
    let _ ← optional (symbol ',')
    pure (first :: more)
  let _ ← gap
  let _ ← symbol closing
  pure (items.getD [])

section Inner

variable (inner : Reader Expr)

/-- An expression in parentheses, which stands for itself. -/
def group : Reader Expr :=
  named .group do
    let _ ← symbol '('
    let _ ← gap
    let e ← inner
    let _ ← gap
    let _ ← symbol ')'
    pure e

/-- A list of expressions. -/
def list : Reader Expr := do
  let (items, start, source) ← located (named .list (bracketed '[' ']' inner))
  pure (.plain (tokenOf start source) .list items)

/-- One entry of a dict: its key as a text, and its value. -/
def dictItem : Reader (List Expr) :=
  named .dictItem do
    let name ← dictKey
    let _ ← gap
    let _ ← symbol ':'
    let _ ← gap
    let value ← inner
    pure [.plain name .text [], value]

/-- A dict. -/
def dict : Reader Expr := do
  let (entries, start, source) ← located (named .dict (bracketed '\x7b' '\x7d' (dictItem inner)))
  pure (.plain (tokenOf start source) .dict entries.flatten)

/-- An expression that is no sum and has no filters of its own outside parentheses. -/
def primary : Reader Expr :=
  group inner <|> list inner <|> dict inner
    <|> literal .float (lexical .float Lexeme.float?)
    <|> literal .int (lexical .int Lexeme.int?)
    <|> literal .bool (lexical .boolean Lexeme.boolean?)
    <|> literal .null (lexical .null Lexeme.null?)
    <|> textLiteral
    <|> literal .path (lexical .path Lexeme.path?)

/-- A filter after a bar. The gap after a filter without arguments belongs to its span. -/
def filter : Reader (FilterCall Expr) :=
  named .filter do
    let ((name, args), start, source) ← located do
      let _ ← symbol '|'
      let _ ← gap
      let name ← nameToken (lexical .filterName Lexeme.name?)
      let _ ← gap
      let args ← optional (named .filterArgs (bracketed '(' ')' inner))
      pure (name, args.getD [])
    pure ⟨name, args, .over start source⟩

/-- One or more filters. -/
def filterChain : Reader (List (FilterCall Expr)) :=
  named .filterChain do
    let first ← filter inner
    let _ ← gap
    let more ← spaced (filter inner)
    pure (first :: more)

/-- A primary expression with its filters. -/
def operand : Reader Expr :=
  named .operand do
    let ((e, filters), start, source) ← located do
      let e ← primary inner
      let _ ← gap
      let filters ← optional (filterChain inner)
      pure (e, filters.getD [])
    pure (e.withFilters filters (tokenOf start source).span)

/-- One operand, or a sum of several. -/
def expression : Reader Expr :=
  named .expression do
    let ((first, more), start, source) ← located do
      let first ← operand inner
      let _ ← gap
      let more ← spaced do
        let _ ← symbol '+'
        let _ ← gap
        operand inner
      pure (first, more)
    match more with
    | [] => pure first
    | _ => pure (.plain (tokenOf start source) .sum (first :: more))

/-- A value under a key, or a value on its own. -/
def argument : Reader Argument :=
  named .argument do
    let ((key, value), start, source) ← located
      ((do
          let name ← key
          let _ ← gap
          let _ ← symbol '='
          let _ ← gap
          let value ← expression inner
          pure (some name, value))
        <|> (do let value ← expression inner; pure (none, value)))
    pure ⟨key, value, (tokenOf start source).span⟩

/-- A whole argument list; a comma may follow each argument. -/
def signature : Reader (List Argument) :=
  named .signature do
    let _ ← gap
    let args ← spaced do
      let a ← argument inner
      let _ ← gap
      let _ ← optional (symbol ',')
      pure a
    let _ ← gap
    endOfInput
    pure args

/-- A whole output: a single expression. -/
def output : Reader Expr :=
  named .output do
    let _ ← gap
    let e ← expression inner
    let _ ← gap
    endOfInput
    pure e

end Inner

/-- An expression whose brackets are nested less than `n` deep. The reader for the next bracket is
built when that bracket is met. -/
def expressionAt : (n : Nat) → Reader Expr
  | 0 => fail
  | n + 1 => delayed fun _ => expression (expressionAt n)

theorem expressionAt_succ (n : Nat) : expressionAt (n + 1) = expression (expressionAt n) := by
  rw [expressionAt, delayed_eq]

end TagTemplate.Grammar
