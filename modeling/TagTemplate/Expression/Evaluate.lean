import TagTemplate.Environment

/-!
# Evaluation

The value of an expression in the scope of a render, and the values of an argument list.
Operands, items and filter arguments are evaluated from left to right, and the first error wins.

Arguments without a key keep their order; all arguments with a key are collected into one map
after them, which carries the reserved name as a mark.
-/

namespace TagTemplate

/-- What an expression can see while it is evaluated. -/
structure Scope where
  env : Environment
  locals : Value
  escaper : Escaper

/-- The segments of a path, between its dots. -/
def pathSegments : List Char → List (List Char)
  | [] => [[]]
  | c :: cs =>
    if c = '.' then [] :: pathSegments cs
    else match pathSegments cs with
      | [] => [[c]]
      | segment :: rest => (c :: segment) :: rest

namespace Scope

/-- Follows the segments of a path from a value. -/
def follow (v : Value) : List String → Option Value
  | [] => some v
  | key :: rest => (v.get? key).bind (follow · rest)

/-- The value of a variable. -/
def lookup (scope : Scope) (path : String) : Except TemplateError Value :=
  match follow scope.locals ((pathSegments path.toList).map String.ofList) with
  | some v => .ok v
  | none => if scope.env.config.throwOnUndefined then .error (.undefinedVariable path) else .ok .null

end Scope

namespace Value

/-- The sum of two values: numbers are added, everything else is put together as text. A sum of
integers that does not fit is a sum of doubles. -/
def add : Value → Value → Value
  | .int a, .int b =>
    let sum := a.toInt + b.toInt
    if Number.fitsWord sum then .int (Int64.ofInt sum)
    else .float (Number.ofInt a.toInt + Number.ofInt b.toInt)
  | .int a, .float b => .float (Number.ofInt a.toInt + b)
  | .float a, .int b => .float (a + Number.ofInt b.toInt)
  | .float a, .float b => .float (a + b)
  | a, b => .text (a.display ++ b.display)

/-- The double that a text spells. -/
def readFloat (text : String) : Except TemplateError Value :=
  match Number.readFloat? text.toList with
  | some x => .ok (.float x)
  | none => .error (.malformed 1 1 (.invalidNumber text))

/-- The integer that a text spells, or the nearest double if it does not fit. -/
def readNumber (text : String) : Except TemplateError Value :=
  match Number.readInt? text.toList with
  | some n => .ok (.int n)
  | none => readFloat text

/-- The truth value that a text spells: true in any case of letters, otherwise false. -/
def readBool (text : String) : Value :=
  .bool (text.toList.map Char.toLower == ['t', 'r', 'u', 'e'])

end Value

mutual

/-- The value of an expression. -/
def Expr.eval (scope : Scope) : Expr → Except TemplateError Value
  | .node token children kind filters span => do
    let v ← match kind with
      | .int => Value.readNumber token.text
      | .float => Value.readFloat token.text
      | .bool => .ok (Value.readBool token.text)
      | .null => .ok .null
      | .text => .ok (.text token.text)
      | .path => scope.lookup token.text
      | .list => do .ok (.list (← Expr.evalAll scope children))
      | .dict => do .ok (.ofEntries (← Expr.evalEntries scope span children))
      | .sum => Expr.evalSum scope children
    Expr.applyAll scope v filters

/-- The values of several expressions. -/
def Expr.evalAll (scope : Scope) : List Expr → Except TemplateError (List Value)
  | [] => .ok []
  | e :: rest => do
    let v ← e.eval scope
    let vs ← Expr.evalAll scope rest
    .ok (v :: vs)

/-- The entries that keys and values in turn give, in a dict at `span`. -/
def Expr.evalEntries (scope : Scope) (span : Span) :
    List Expr → Except TemplateError (List (String × Value))
  | [] => .ok []
  | [_] => .error (.malformed span.start.line span.start.column .unevenDict)
  | key :: e :: rest => do
    let v ← e.eval scope
    let entries ← Expr.evalEntries scope span rest
    .ok ((key.token.text, v) :: entries)

/-- The sum of several expressions, null if there are none. -/
def Expr.evalSum (scope : Scope) : List Expr → Except TemplateError Value
  | [] => .ok .null
  | e :: rest => do
    let v ← e.eval scope
    Expr.evalSumFrom scope v rest

/-- Adds the values of further expressions to a value. -/
def Expr.evalSumFrom (scope : Scope) (v : Value) : List Expr → Except TemplateError Value
  | [] => .ok v
  | e :: rest => do
    let w ← e.eval scope
    Expr.evalSumFrom scope (v.add w) rest

/-- Applies filters to a value, the first one first. The arguments of a filter are evaluated before
the filter is looked up. -/
def Expr.applyAll (scope : Scope) (v : Value) :
    List (FilterCall Expr) → Except TemplateError Value
  | [] => .ok v
  | ⟨name, args, _⟩ :: rest => do
    let vs ← Expr.evalAll scope args
    let w ← scope.env.applyFilter name.text v vs scope.escaper
    Expr.applyAll scope w rest

end

namespace Argument

/-- The values of arguments, each with the text of its key. -/
def evalKeyed (scope : Scope) : List Argument → Except TemplateError (List (Option String × Value))
  | [] => .ok []
  | a :: rest => do
    let v ← a.value.eval scope
    let vs ← evalKeyed scope rest
    .ok ((a.key.map (·.text), v) :: vs)

/-- Arranges evaluated arguments: those without a key in their order, then one map of those with a
key, if there are any, with the mark set last. -/
def arrange (vs : List (Option String × Value)) : List Value :=
  let positional := vs.filterMap fun (key, v) => if key.isNone then some v else none
  let keywords := vs.filterMap fun (key, v) => key.map (·, v)
  if keywords.isEmpty then positional
  else positional ++
    [.map (Entries.insert Attribute.reservedName (.bool true) (Entries.ofList keywords))]

/-- The values of an argument list. -/
def evalList (scope : Scope) (args : List Argument) : Except TemplateError (List Value) :=
  (evalKeyed scope args).map arrange

end Argument

end TagTemplate
