import TagTemplate.Error
import TagTemplate.Text.Case

/-!
# Filters

A filter turns a value into another, given further arguments and the escaper of the render. The
built-in filters mark text as safe, escape it, change its case, and pick or join parts.
-/

namespace TagTemplate

/-- A filter of expressions. -/
abbrev Filter := Value → List Value → Escaper → Except TemplateError Value

namespace Filter

/-- Changes the text of a value. Safe text stays safe, and what is no text becomes the text that
it prints as. -/
def mapText (f : List Char → List Char) : Value → Value
  | .safe s => .safe ⟨String.ofList (f s.text.toList)⟩
  | v => .text (String.ofList (f v.display.toList))

/-- Vouches for a value as markup. -/
def safe : Filter := fun v _ escaper =>
  match v with
  | .safe _ => .ok v
  | _ => .ok (.safe (escaper.markSafe v.display))

/-- Escapes a value. Safe text is left alone. -/
def escape : Filter := fun v _ escaper =>
  match v with
  | .safe _ => .ok v
  | _ => .ok (.safe (escaper.markSafe (escaper.escape v.display)))

/-- Upper case. -/
def upper : Filter := fun v _ _ =>
  .ok (mapText Text.upper v)

/-- Lower case. -/
def lower : Filter := fun v _ _ =>
  .ok (mapText Text.lower v)

/-- The first item of a list, or the first character of a text. -/
def first : Filter := fun v _ _ =>
  match v with
  | .list items => .ok (items.head?.getD .null)
  | .text _ => .ok (mapText (List.take 1) v)
  | .safe _ => .ok (mapText (List.take 1) v)
  | _ => .ok v

/-- The items of a list as one text, with the first argument between them. -/
def join : Filter := fun v args _ =>
  let separator := args.head?.elim "" Value.display
  match v with
  | .list items => .ok (.text (separator.intercalate (items.map Value.display)))
  | _ => .ok (.text v.display)

/-- The first argument in place of null; if the second argument is true, in place of every value
that is not. -/
def fallback : Filter := fun v args _ =>
  match args with
  | [] => .error (.filterFailed "default" "expected a fallback value")
  | a :: more =>
    let replaces := if more.head?.any Value.isTruthy then !v.isTruthy else v.isNull
    .ok (if replaces then a else v)

/-- The built-in filters under their names. -/
def builtin : Entries Filter :=
  [("safe", safe), ("escape", escape), ("e", escape), ("upper", upper), ("lower", lower),
    ("first", first), ("join", join), ("default", fallback)]

end Filter

end TagTemplate
