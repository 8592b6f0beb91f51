import TagTemplate.Attribute.Item

/-!
# The text of an attribute list

What stands between the name of an element and the closing `>`. Every item gives tokens; the
tokens of all items are joined by single spaces, in the order in which they first appear and each
only once. The reserved name is never written, neither as an attribute nor as a flag.
-/

namespace TagTemplate.Attribute

/-- The name under which an evaluated argument list marks its map of keywords. -/
def reservedName : String :=
  "__keywords"

/-- The text between the quotes of an attribute value. -/
def Content.write (escaper : Escaper) : Content → String
  | .scalar s => s.escaped escaper
  | .list items => " ".intercalate (items.map (·.escaped escaper)).eraseDups
  | .safe s => s.text
  | .flags entries =>
    " ".intercalate
      ((entries.filter fun (name, on) => on && name != reservedName).map
        fun (name, _) => escaper.escape name)

/-- One attribute with its value. -/
def writePair (escaper : Escaper) (name : String) (content : Content) : String :=
  escaper.escape name ++ "=\"" ++ content.write escaper ++ "\""

/-- The tokens of one item, empty ones included. -/
def Item.tokens (escaper : Escaper) : Item → List String
  | .flag s => [s.escaped escaper]
  | .flags items => items.map (·.escaped escaper)
  | .map entries =>
    (entries.filter fun (name, _) => name != reservedName).map
      fun (name, content) => writePair escaper name content

/-- The tokens of an attribute list: none is empty and none stands twice. -/
def tokens (escaper : Escaper) (items : List Item) : List String :=
  ((items.flatMap (Item.tokens escaper)).filter fun t => !t.isEmpty).eraseDups

/-- The text of an attribute list. -/
def write (escaper : Escaper) (items : List Item) : String :=
  " ".intercalate (tokens escaper items)

/-- The text of an attribute list that is given as one value. -/
def writeValue (escaper : Escaper) (v : Value) : Except ArgumentError String :=
  (Item.ofListValue v).map (write escaper)

/-- Erasing repetitions leaves none. -/
theorem nodup_eraseDups (l : List String) : l.eraseDups.Nodup := by
  match l with
  | [] => simp
  | a :: as =>
    rw [List.eraseDups_cons, List.nodup_cons]
    exact ⟨by simp [List.mem_eraseDups], nodup_eraseDups _⟩
termination_by l.length
decreasing_by simp only [List.length_cons]; exact Nat.lt_succ_of_le (List.length_filter_le ..)

theorem nodup_tokens (escaper : Escaper) (items : List Item) : (tokens escaper items).Nodup :=
  nodup_eraseDups _

end TagTemplate.Attribute
