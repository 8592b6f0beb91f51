import TagTemplate.Expression.Tree
import TagTemplate.Proofs.Expression.Lexeme

/-!
# Printing argument lists

The canonical text of an argument list: keys, strings and dict keys in double quotes, a comma and a
space between arguments and between items, a sum in parentheses where it is an operand or has
filters, and filters behind bars, with parentheses only if they have arguments.

`Printable` says of an expression that the language can write it: its words, numbers, paths and
filter names are ones that the language has, a dict has keys and values in turn, a sum has two
operands at least. `bare` leaves of an expression what its text can give back, that is everything
but places and the source of lists, dicts and sums.
-/

namespace TagTemplate

/-- Texts with a comma and a space between them. -/
def commaSeparated (texts : List (List Char)) : List Char :=
  List.intercalate [',', ' '] texts

/-- Texts with a plus between them. -/
def plusSeparated (texts : List (List Char)) : List Char :=
  List.intercalate [' ', '+', ' '] texts

/-- The arguments of a filter, given as texts. -/
def filterArguments (texts : List (List Char)) : List Char :=
  if texts.isEmpty then [] else '(' :: commaSeparated texts ++ [')']

mutual

/-- The text of an expression. `operand` says whether it is an operand of a sum. -/
def Expr.print (operand : Bool) : Expr → List Char
  | .node token children kind filters _ =>
    (match kind with
      | .list => '[' :: commaSeparated (Expr.printAll false children) ++ [']']
      | .dict => '\x7b' :: commaSeparated (Expr.printEntries children) ++ ['\x7d']
      | .text => Lexeme.quoted token.text.toList
      | .sum =>
        if operand || !filters.isEmpty then
          '(' :: plusSeparated (Expr.printAll true children) ++ [')']
        else plusSeparated (Expr.printAll true children)
      | _ => token.text.toList) ++ Expr.printFilters filters

/-- The texts of several expressions. -/
def Expr.printAll (operand : Bool) : List Expr → List (List Char)
  | [] => []
  | e :: rest => e.print operand :: Expr.printAll operand rest

/-- The texts of the entries that keys and values in turn make. -/
def Expr.printEntries : List Expr → List (List Char)
  | key :: value :: rest =>
    (Lexeme.quoted key.token.text.toList ++ ':' :: ' ' :: value.print false)
      :: Expr.printEntries rest
  | _ => []

/-- The text of a chain of filters. -/
def Expr.printFilters : List (FilterCall Expr) → List Char
  | [] => []
  | ⟨name, args, _⟩ :: rest =>
    '|' :: name.text.toList ++ filterArguments (Expr.printAll false args)
      ++ Expr.printFilters rest

end

/-- The text of a filter. -/
def FilterCall.print (f : FilterCall Expr) : List Char :=
  '|' :: f.name.text.toList ++ filterArguments (f.args.map (Expr.print false))

namespace Argument

/-- The text of an argument. -/
def print (a : Argument) : List Char :=
  match a.key with
  | some key => Lexeme.quoted key.text.toList ++ '=' :: a.value.print false
  | none => a.value.print false

/-- The text of an argument list. -/
def printList (args : List Argument) : String :=
  String.ofList (commaSeparated (args.map print))

end Argument

/-! ## What can be printed -/

/-- Keys and values in turn, where a key is a text and nothing else. -/
def Expr.IsDict : List Expr → Prop
  | [] => True
  | [_] => False
  | key :: _ :: rest =>
    (key.kind = .text ∧ key.children = [] ∧ key.filters = []) ∧ Expr.IsDict rest

/-- The language can write an expression of this kind with this token and these parts. -/
def Expr.Kind.Admits (kind : Expr.Kind) (token : List Char) (children : List Expr) : Prop :=
  match kind with
  | .int => Lexeme.int? token = some (token, []) ∧ children = []
  | .float => Lexeme.float? token = some (token, []) ∧ children = []
  | .bool => Lexeme.boolean? token = some (token, []) ∧ children = []
  | .null => Lexeme.null? token = some (token, []) ∧ children = []
  | .path =>
    Lexeme.path? token = some (token, []) ∧
      (∀ w ∈ Lexeme.reservedWords, token.takeWhile (· != '.') ≠ w.toList) ∧ children = []
  | .text => children = []
  | .list => True
  | .dict => Expr.IsDict children
  | .sum => 2 ≤ children.length

mutual

/-- The language can write the expression. -/
def Expr.Printable : Expr → Prop
  | .node token children kind filters _ =>
    kind.Admits token.text.toList children ∧ Expr.PrintableAll children ∧
      Expr.PrintableFilters filters

/-- The language can write the expressions. -/
def Expr.PrintableAll : List Expr → Prop
  | [] => True
  | e :: rest => e.Printable ∧ Expr.PrintableAll rest

/-- The language can write the filters. -/
def Expr.PrintableFilters : List (FilterCall Expr) → Prop
  | [] => True
  | ⟨name, args, _⟩ :: rest =>
    Lexeme.name? name.text.toList = some (name.text.toList, []) ∧ Expr.PrintableAll args ∧
      Expr.PrintableFilters rest

end

/-- The language can write the argument: its key is not empty. -/
def Argument.Printable (a : Argument) : Prop :=
  (∀ key ∈ a.key, key.text ≠ "") ∧ a.value.Printable

/-! What can be printed can be decided, part by part. -/

instance Expr.decidableIsDict : (children : List Expr) → Decidable (Expr.IsDict children)
  | [] => .isTrue trivial
  | [_] => .isFalse id
  | _ :: _ :: rest =>
    have := Expr.decidableIsDict rest
    inferInstanceAs (Decidable (_ ∧ _))

instance Expr.Kind.decidableAdmits (kind : Expr.Kind) (token : List Char) (children : List Expr) :
    Decidable (kind.Admits token children) :=
  match kind with
  | .int => inferInstanceAs (Decidable (_ ∧ _))
  | .float => inferInstanceAs (Decidable (_ ∧ _))
  | .bool => inferInstanceAs (Decidable (_ ∧ _))
  | .null => inferInstanceAs (Decidable (_ ∧ _))
  | .path => inferInstanceAs (Decidable (_ ∧ _ ∧ _))
  | .text => inferInstanceAs (Decidable (children = []))
  | .list => .isTrue trivial
  | .dict => Expr.decidableIsDict children
  | .sum => inferInstanceAs (Decidable (2 ≤ children.length))

mutual

def Expr.decidePrintable : (e : Expr) → Decidable e.Printable
  | .node token children kind filters _ =>
    have := Expr.decidePrintableAll children
    have := Expr.decidePrintableFilters filters
    inferInstanceAs (Decidable (kind.Admits token.text.toList children ∧ _ ∧ _))

def Expr.decidePrintableAll : (es : List Expr) → Decidable (Expr.PrintableAll es)
  | [] => .isTrue trivial
  | e :: rest =>
    have := e.decidePrintable
    have := Expr.decidePrintableAll rest
    inferInstanceAs (Decidable (_ ∧ _))

def Expr.decidePrintableFilters :
    (filters : List (FilterCall Expr)) → Decidable (Expr.PrintableFilters filters)
  | [] => .isTrue trivial
  | ⟨_, args, _⟩ :: rest =>
    have := Expr.decidePrintableAll args
    have := Expr.decidePrintableFilters rest
    inferInstanceAs (Decidable (_ ∧ _))

end

instance (e : Expr) : Decidable e.Printable :=
  e.decidePrintable

instance (a : Argument) : Decidable a.Printable :=
  inferInstanceAs (Decidable (_ ∧ _))

/-! ## What the text gives back -/

/-- No place at all. -/
def Span.none : Span :=
  ⟨.start, 0⟩

/-- The token without its place. -/
def Token.bare (token : Token) : Token :=
  ⟨token.text, .none⟩

/-- Is the token of an expression of this kind more than its source? -/
def Expr.Kind.hasText : Expr.Kind → Bool
  | .list => false
  | .dict => false
  | .sum => false
  | _ => true

mutual

/-- The expression without places and without the source of lists, dicts and sums. -/
def Expr.bare : Expr → Expr
  | .node token children kind filters _ =>
    .node (if kind.hasText then token.bare else ⟨"", .none⟩) (Expr.bareAll children) kind
      (Expr.bareFilters filters) .none

/-- The expressions without places. -/
def Expr.bareAll : List Expr → List Expr
  | [] => []
  | e :: rest => e.bare :: Expr.bareAll rest

/-- The filters without places. -/
def Expr.bareFilters : List (FilterCall Expr) → List (FilterCall Expr)
  | [] => []
  | ⟨name, args, _⟩ :: rest => ⟨name.bare, Expr.bareAll args, .none⟩ :: Expr.bareFilters rest

end

/-- The filter without places. -/
def FilterCall.bare (f : FilterCall Expr) : FilterCall Expr :=
  ⟨f.name.bare, f.args.map Expr.bare, .none⟩

/-- The argument without places. -/
def Argument.bare (a : Argument) : Argument :=
  ⟨a.key.map Token.bare, a.value.bare, .none⟩

/-! ## Lists as lists -/

theorem intercalate_cons (separator t : List Char) (ts : List (List Char)) :
    List.intercalate separator (t :: ts) = t ++ ts.flatMap (separator ++ ·) := by
  induction ts generalizing t with
  | nil => simp
  | cons s ts ih =>
    rw [List.intercalate_cons_cons, ih, List.flatMap_cons, List.append_assoc, List.append_assoc]

theorem length_le_flatMap {β : Type} (text : β → List Char) {b : β} {items : List β}
    (h : b ∈ items) : (text b).length ≤ (items.flatMap text).length := by
  rw [List.flatMap_def]
  exact (List.sublist_flatten_of_mem (List.mem_map_of_mem h)).length_le

/-- What is put together with separators is no longer than the whole. -/
theorem length_le_intercalate {β : Type} (separator : List Char) (text : β → List Char) {b : β}
    {items : List β} (h : b ∈ items) :
    (text b).length ≤ (List.intercalate separator (items.map text)).length := by
  cases items with
  | nil => cases h
  | cons c items =>
    rw [List.map_cons, intercalate_cons, List.flatMap_map, List.length_append]
    rcases List.mem_cons.mp h with rfl | h
    · exact Nat.le_add_right ..
    · have hflat := length_le_flatMap (fun b => separator ++ text b) h
      rw [List.length_append] at hflat
      omega

theorem commaSeparated_map_cons {β : Type} (text : β → List Char) (b : β) (items : List β) :
    commaSeparated ((b :: items).map text) =
      text b ++ items.flatMap fun b => ',' :: ' ' :: text b := by
  rw [commaSeparated, List.map_cons, intercalate_cons, List.flatMap_map]
  rfl

theorem filterArguments_map_cons {β : Type} (text : β → List Char) (b : β) (items : List β) :
    filterArguments ((b :: items).map text) =
      '(' :: (commaSeparated ((b :: items).map text) ++ [')']) :=
  rfl

theorem plusSeparated_map_cons {β : Type} (text : β → List Char) (b : β) (items : List β) :
    plusSeparated ((b :: items).map text) =
      text b ++ items.flatMap fun b => ' ' :: '+' :: ' ' :: text b := by
  rw [plusSeparated, List.map_cons, intercalate_cons, List.flatMap_map]
  rfl

namespace Expr

theorem printAll_eq_map (operand : Bool) (es : List Expr) :
    printAll operand es = es.map (print operand) := by
  induction es with
  | nil => rfl
  | cons e rest ih => rw [printAll, ih, List.map_cons]

theorem printFilters_eq_flatMap (filters : List (FilterCall Expr)) :
    printFilters filters = filters.flatMap FilterCall.print := by
  induction filters with
  | nil => rfl
  | cons f rest ih =>
    rw [printFilters, ih, printAll_eq_map, List.flatMap_cons]
    rfl

theorem bareAll_eq_map (es : List Expr) : bareAll es = es.map bare := by
  induction es with
  | nil => rfl
  | cons e rest ih => rw [bareAll, ih, List.map_cons]

theorem bareFilters_eq_map (filters : List (FilterCall Expr)) :
    bareFilters filters = filters.map FilterCall.bare := by
  induction filters with
  | nil => rfl
  | cons f rest ih =>
    rw [bareFilters, ih, bareAll_eq_map]
    rfl

/-! ## The text of one expression -/

/-- The text of an expression without its filters; a sum stands in parentheses. -/
def printPrimary (token : Token) (children : List Expr) : Kind → List Char
  | .list => '[' :: (commaSeparated (children.map (print false)) ++ [']'])
  | .dict => '\x7b' :: (commaSeparated (printEntries children) ++ ['\x7d'])
  | .sum => '(' :: (plusSeparated (children.map (print true)) ++ [')'])
  | .text => Lexeme.quoted token.text.toList
  | _ => token.text.toList

variable {token : Token} {children : List Expr} {kind : Kind} {filters : List (FilterCall Expr)}
  {span : Span}

theorem print_operand :
    (node token children kind filters span).print true =
      printPrimary token children kind ++ filters.flatMap FilterCall.print := by
  cases kind <;> simp [print, printPrimary, printAll_eq_map, printFilters_eq_flatMap]

/-- Only a sum without filters is written otherwise when it stands on its own. -/
theorem print_of_ne_sum (h : kind = .sum → filters ≠ []) (asOperand : Bool) :
    (node token children kind filters span).print asOperand =
      printPrimary token children kind ++ filters.flatMap FilterCall.print := by
  cases kind with
  | sum =>
    have hfilters : filters ≠ [] := h rfl
    simp [print, printPrimary, printAll_eq_map, printFilters_eq_flatMap, hfilters]
  | _ => simp [print, printPrimary, printAll_eq_map, printFilters_eq_flatMap]

theorem print_sum :
    (node token children .sum [] span).print false = plusSeparated (children.map (print true)) := by
  simp [print, printAll_eq_map, printFilters]

end Expr

end TagTemplate
