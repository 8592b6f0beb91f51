import TagTemplate.Position

/-!
# Expressions and arguments

What an argument list or an output expression is read into. Every part remembers the piece of
source that it came from: a token its own text and place, an expression in addition the place
including its filters.
-/

namespace TagTemplate

/-- The kinds of expression. -/
inductive Expr.Kind where
  | list | dict | int | float | bool | null | path | text | sum
  deriving DecidableEq

/-- The name of a kind of expression. -/
def Expr.Kind.name : Expr.Kind → String
  | .list => "list"
  | .dict => "dict"
  | .int => "int"
  | .float => "float"
  | .bool => "bool"
  | .null => "null"
  | .path => "variable"
  | .text => "string"
  | .sum => "sum"

/-- A text and where it stands. The text of a string literal or of a quoted key is what the
literal means, without quotes. -/
structure Token where
  text : String
  span : Span
  deriving DecidableEq

/-- A filter with its arguments. Its span begins at the bar. -/
structure FilterCall (α : Type) where
  name : Token
  args : List α
  span : Span

/-- An expression. The children are the items of a list, the operands of a sum, or the keys and
values of a dict in turn; the filters apply from left to right; the token leaves them out and the
span takes them in. -/
inductive Expr where
  | node (token : Token) (children : List Expr) (kind : Expr.Kind)
      (filters : List (FilterCall Expr)) (span : Span)

namespace Expr

/-- The source of the expression without its filters. -/
def token : Expr → Token
  | node token _ _ _ _ => token

/-- The parts of a list, dict or sum. -/
def children : Expr → List Expr
  | node _ children _ _ _ => children

/-- The kind of the expression. -/
def kind : Expr → Kind
  | node _ _ kind _ _ => kind

/-- The filters, the first to be applied first. -/
def filters : Expr → List (FilterCall Expr)
  | node _ _ _ filters _ => filters

/-- The source of the expression with its filters. -/
def span : Expr → Span
  | node _ _ _ _ span => span

/-- An expression without filters whose source is its token. -/
def plain (token : Token) (kind : Kind) (children : List Expr) : Expr :=
  node token children kind [] token.span

/-- Applies further filters; the expression now spans `span`. -/
def withFilters (added : List (FilterCall Expr)) (span : Span) : Expr → Expr
  | node token children kind filters _ => node token children kind (filters ++ added) span

end Expr

/-- One argument of a tag: a value, under a key or on its own. -/
structure Argument where
  key : Option Token
  value : Expr
  span : Span

/-- Is the argument given under a key? -/
def Argument.isKeyword (a : Argument) : Bool :=
  a.key.isSome

end TagTemplate
