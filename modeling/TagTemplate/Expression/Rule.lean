/-!
# Rules of the argument language

The rules that a report of unreadable text can name, and the wording of such a report.
-/

namespace TagTemplate

/-- A named rule. -/
inductive Rule where
  | endOfInput | signature | output | argument | key | attrName | expression | operand | group
  | list | dict | dictItem | dictKey | filterChain | filter | filterName | filterArgs | float
  | int | boolean | null | stringLiteral | path | name
  deriving DecidableEq

namespace Rule

/-- What a rule is called in reports. -/
def title : Rule → String
  | endOfInput => "EOI"
  | signature => "signature"
  | output => "output"
  | argument => "attribute"
  | key => "key"
  | attrName => "attr_name"
  | expression => "expression"
  | operand => "operand"
  | group => "group"
  | list => "list"
  | dict => "dict"
  | dictItem => "dict_item"
  | dictKey => "dict_key"
  | filterChain => "filter_chain"
  | filter => "filter"
  | filterName => "filter_name"
  | filterArgs => "filter_args"
  | float => "float"
  | int => "int"
  | boolean => "boolean"
  | null => "null"
  | stringLiteral => "string_literal"
  | path => "variable"
  | name => "name"

/-- All rules, in the order in which reports list them. -/
def all : List Rule :=
  [endOfInput, signature, output, argument, key, attrName, expression, operand, group, list, dict,
    dictItem, dictKey, filterChain, filter, filterName, filterArgs, float, int, boolean, null,
    stringLiteral, path, name]

/-- Names joined as alternatives. -/
def alternatives : List String → String
  | [] => ""
  | [a] => a
  | [a, b] => a ++ " or " ++ b
  | names => ", ".intercalate names.dropLast ++ ", or " ++ (names.getLast?.getD "")

/-- The report that one of these rules was expected. Each is named once. -/
def expectation (rules : List Rule) : String :=
  "expected " ++ alternatives ((all.filter (rules.contains ·)).map title)

end Rule

end TagTemplate
