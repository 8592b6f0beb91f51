import TagTemplate.Expression.Grammar

/-!
# Reading arguments and expressions

The entry points of the argument language: a text is read as an argument list or as a single
expression, or the reason why it cannot be is given.
-/

namespace TagTemplate

/-- Why a text could not be read. -/
inductive ReadError where
  /-- At the furthest offset reached, one of these rules was expected. -/
  | expected (offset : Nat) (rules : List Rule)
  /-- The text can be read, but a quoted key in it is empty. -/
  | emptyKey
  deriving DecidableEq

namespace ReadError

/-- The reason in words. -/
def message : ReadError → String
  | expected _ rules => Rule.expectation rules
  | emptyKey => "Invalid key: Key must not be empty"

/-- The byte offset that a report points at, if it points anywhere. -/
def offset? : ReadError → Option Nat
  | expected offset _ => some offset
  | emptyKey => none

end ReadError

/-- Reads a whole text. The reader is given the reader of bracketed expressions. -/
def Reader.readAll {α : Type} (p : Reader Expr → Reader α) (text : String) : Except ReadError α :=
  let cs := text.toList
  let o := (p (Grammar.expressionAt (cs.length + 1))).run ⟨cs, .start⟩
  match o.result with
  | some (a, _) => .ok a
  | none =>
    let furthest := o.attempts .none
    .error (.expected furthest.offset furthest.rules)

/-- Reads an argument list. -/
def Argument.readList (text : String) : Except ReadError (List Argument) :=
  match Reader.readAll Grammar.signature text with
  | .ok args =>
    if args.any fun a => a.key.any (·.text.isEmpty) then .error .emptyKey else .ok args
  | .error e => .error e

/-- Reads an expression. -/
def Expr.read (text : String) : Except ReadError Expr :=
  Reader.readAll Grammar.output text

end TagTemplate
