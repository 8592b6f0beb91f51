import TagTemplate.Attribute.Text
import TagTemplate.Proofs.Html.Unescape

/-!
# The attributes can be read back from their text

`write` works on escaped text throughout: it erases repeated tokens, and repeated items of a
list value, after escaping. This file says what that means for the raw texts. `entries` is what
an attribute list says, computed without an escaper, and `readText` is a reader of attribute
text that knows only spaces, double quotes and the five entities:

> `readText_write`: `readText` gives `entries` back, for every list of items that holds no
> safe markup and whose flags and names hold no space.

The bridge is `Entry.token`, the escaped text of one entry. `ofPiece?_token` reads it back, so
distinct entries have distinct tokens (`token_injective`) and erasing repetitions before or
after escaping is the same (`tokens_eq`). A token has its spaces inside quotes
(`splitAtSpaces_token_append`), so the spaces between tokens are the ones that are split at.
-/

namespace TagTemplate.Attribute

/-! ## What an attribute list says -/

/-- One attribute, as raw text. -/
inductive Entry where
  | flag (text : String)
  | pair (name value : String)
  deriving DecidableEq

/-- An attribute that leaves no trace in the text: a flag without characters. -/
def Entry.isBlank : Entry → Bool
  | .flag text => text.isEmpty
  | .pair _ _ => false

/-- The part of an attribute that is written outside quotes. -/
def Entry.name : Entry → String
  | .flag text => text
  | .pair name _ => name

/-- The raw text of an attribute value. -/
def Content.plain : Content → String
  | .scalar s => s.display
  | .list items => " ".intercalate (items.map Scalar.display).eraseDups
  | .safe s => s.text
  | .flags entries =>
    " ".intercalate ((entries.filter fun (name, on) => on && name != reservedName).map Prod.fst)

/-- The attributes of one item, blank ones included. -/
def Item.entries : Item → List Entry
  | .flag s => [.flag s.display]
  | .flags items => items.map fun s => .flag s.display
  | .map contents =>
    (contents.filter fun (name, _) => name != reservedName).map
      fun (name, content) => .pair name content.plain

/-- The attributes of a list of items, in the order of their first appearance, each once. -/
def entries (items : List Item) : List Entry :=
  ((items.flatMap Item.entries).filter fun e => !e.isBlank).eraseDups

/-! ## A reader of attribute text -/

/-- Puts characters in front of the first piece. -/
def addToFirst (cs : List Char) : List (List Char) → List (List Char)
  | [] => [cs]
  | piece :: rest => (cs ++ piece) :: rest

/-- Splits a text at the spaces outside double quotes; `quoted` says whether it begins inside. -/
def splitAtSpaces : (quoted : Bool) → List Char → List (List Char)
  | _, [] => [[]]
  | quoted, c :: cs =>
    if c = ' ' ∧ quoted = false then [] :: splitAtSpaces quoted cs
    else addToFirst [c] (splitAtSpaces (if c = '"' then !quoted else quoted) cs)

/-- The pieces of a text; an empty text has none. -/
def pieces (text : List Char) : List (List Char) :=
  if text.isEmpty then [] else splitAtSpaces false text

/-- Reads one piece: an attribute with a value if there is a quote in it, otherwise a flag. -/
def Entry.ofPiece? (piece : List Char) : Option Entry :=
  match piece.dropWhile (· != '"') with
  | [] => some (.flag (String.ofList (Html.unescapeChars piece)))
  | _ :: inner =>
    let name := piece.takeWhile (· != '"')
    if name.getLast? = some '=' ∧ inner.getLast? = some '"' then
      some (.pair (String.ofList (Html.unescapeChars name.dropLast))
        (String.ofList (Html.unescapeChars inner.dropLast)))
    else none

/-- Reads the text of an attribute list. -/
def readText (text : String) : Option (List Entry) :=
  (pieces text.toList).mapM Entry.ofPiece?

/-! ## Items without safe markup, and with names that hold no space -/

/-- Is the scalar safe markup? -/
def Scalar.isSafe : Scalar → Bool
  | .safe _ => true
  | _ => false

/-- Is there safe markup in the value? -/
def Content.hasSafe : Content → Bool
  | .scalar s => s.isSafe
  | .list items => items.any Scalar.isSafe
  | .safe _ => true
  | .flags _ => false

/-- Is there safe markup in the item? -/
def Item.hasSafe : Item → Bool
  | .flag s => s.isSafe
  | .flags items => items.any Scalar.isSafe
  | .map contents => contents.any fun (_, content) => content.hasSafe

/-- The texts of an item that are written outside quotes: its flags and its names. -/
def Item.names : Item → List String
  | .flag s => [s.display]
  | .flags items => items.map Scalar.display
  | .map contents => contents.map Prod.fst

/-! ## The text of one entry -/

/-- The escaped text of an entry. -/
def Entry.token : Entry → String
  | .flag text => Html.escape text
  | .pair name value => Html.escape name ++ "=\"" ++ Html.escape value ++ "\""

theorem toList_token_pair (name value : String) :
    (Entry.pair name value).token.toList =
      (Html.escapeChars name.toList ++ ['=']) ++
        '"' :: (Html.escapeChars value.toList ++ ['"']) := by
  simp [Entry.token, String.toList_append]

theorem ne_quote_of_not_mem {cs : List Char} (h : '"' ∉ cs) : ∀ c ∈ cs, (c != '"') = true := by
  intro c hc
  refine bne_iff_ne.mpr fun heq => ?_
  exact h (heq ▸ hc)

/-- The token of an entry is read as that entry. -/
theorem ofPiece?_token (e : Entry) : Entry.ofPiece? e.token.toList = some e := by
  cases e with
  | flag text =>
    have hno := ne_quote_of_not_mem (Html.not_mem_escapeChars (Or.inl rfl) text.toList)
    have hdrop : (Html.escapeChars text.toList).dropWhile (· != '"') = [] := by
      rw [← List.append_nil (Html.escapeChars _), List.dropWhile_append_of_pos hno]
      rfl
    rw [Entry.token, Html.toList_escape, Entry.ofPiece?, hdrop]
    simp [Html.unescapeChars_escapeChars]
  | pair name value =>
    have hname : '"' ∉ Html.escapeChars name.toList ++ ['='] := by
      rw [List.mem_append, not_or]
      exact ⟨Html.not_mem_escapeChars (Or.inl rfl) _, by decide⟩
    have hne := ne_quote_of_not_mem hname
    rw [toList_token_pair, Entry.ofPiece?, List.takeWhile_append_of_pos hne,
      List.dropWhile_append_of_pos hne]
    simp [Html.unescapeChars_escapeChars]

theorem token_injective {a b : Entry} (h : a.token = b.token) : a = b := by
  have hread := ofPiece?_token a
  rw [h, ofPiece?_token b] at hread
  exact (Option.some.inj hread).symm

theorem isEmpty_token (e : Entry) : e.token.isEmpty = e.isBlank := by
  cases e with
  | flag text =>
    rw [Bool.eq_iff_iff]
    simp only [Entry.token, Entry.isBlank, String.isEmpty_iff, ← String.toList_eq_nil_iff,
      Html.toList_escape, Html.escapeChars_eq_nil]
  | pair name value =>
    rw [Bool.eq_iff_iff, String.isEmpty_iff, ← String.toList_eq_nil_iff, toList_token_pair]
    simp [Entry.isBlank]

/-! ## Writing, entry by entry -/

theorem escaped_html {s : Scalar} (h : s.isSafe = false) :
    s.escaped .html = Html.escape s.display := by
  cases s with
  | null => rfl
  | safe s => exact absurd h (by simp [Scalar.isSafe])
  | bool b => rfl
  | int n => rfl
  | float x => rfl
  | text s => rfl

theorem map_escaped_html {items : List Scalar} (h : items.any Scalar.isSafe = false) :
    items.map (·.escaped .html) = (items.map Scalar.display).map Html.escape := by
  rw [List.map_map]
  refine List.map_congr_left fun s hs => ?_
  exact escaped_html (by simpa using List.any_eq_false.mp h s hs)

theorem escape_append (s t : String) : Html.escape (s ++ t) = Html.escape s ++ Html.escape t := by
  rw [← String.toList_inj]
  simp [String.toList_append]

/-- Escaping leaves the spaces between joined texts alone. -/
theorem escape_intercalate (l : List String) :
    Html.escape (" ".intercalate l) = " ".intercalate (l.map Html.escape) := by
  have hspace : Html.escape " " = " " := by decide
  induction l with
  | nil => decide
  | cons s rest ih =>
    cases rest with
    | nil => simp
    | cons t rest =>
      simp only [List.map_cons] at ih ⊢
      rw [String.intercalate_cons_cons, escape_append, escape_append, ih, hspace,
        String.intercalate_cons_cons]

/-- A map that keeps things apart commutes with erasing repetitions. -/
theorem eraseDups_map {α β : Type} [BEq α] [LawfulBEq α] [BEq β] [LawfulBEq β] {f : α → β}
    (hf : ∀ a b, f a = f b → a = b) (l : List α) : (l.map f).eraseDups = l.eraseDups.map f := by
  match l with
  | [] => simp
  | a :: as =>
    have hfilter : (as.map f).filter (fun b => !b == f a)
        = (as.filter fun b => !b == a).map f := by
      rw [List.filter_map]
      congr 1
      refine List.filter_congr fun b _ => ?_
      have : (f b == f a) = (b == a) := by
        rw [Bool.eq_iff_iff, beq_iff_eq, beq_iff_eq]
        exact ⟨hf b a, fun h => h ▸ rfl⟩
      simp [this]
    rw [List.map_cons, List.eraseDups_cons, hfilter, eraseDups_map hf, List.eraseDups_cons,
      List.map_cons]
termination_by l.length
decreasing_by simp only [List.length_cons]; exact Nat.lt_succ_of_le (List.length_filter_le ..)

theorem write_html {content : Content} (h : content.hasSafe = false) :
    content.write .html = Html.escape content.plain := by
  cases content with
  | scalar s => exact escaped_html h
  | list items =>
    rw [Content.write, Content.plain, map_escaped_html h,
      eraseDups_map (fun _ _ => Html.escape_injective), escape_intercalate]
  | safe s => exact absurd h (by simp [Content.hasSafe])
  | flags entries =>
    rw [Content.write, Content.plain, escape_intercalate, List.map_map]
    rfl

theorem itemTokens_html {item : Item} (h : item.hasSafe = false) :
    item.tokens .html = item.entries.map Entry.token := by
  cases item with
  | flag s => simp [Item.tokens, Item.entries, Entry.token, escaped_html h]
  | flags items =>
    rw [Item.tokens, map_escaped_html h, Item.entries, List.map_map, List.map_map]
    rfl
  | map contents =>
    rw [Item.tokens, Item.entries, List.map_map]
    refine List.map_congr_left fun entry hmem => ?_
    obtain ⟨name, content⟩ := entry
    have hcontent : content.hasSafe = false := by
      have := List.any_eq_false.mp h _ (List.mem_filter.mp hmem).1
      simpa using this
    show writePair .html name content = (Entry.pair name content.plain).token
    rw [writePair, write_html hcontent]
    rfl

/-- Erasing repeated tokens erases repeated entries. -/
theorem tokens_eq {items : List Item} (h : ∀ item ∈ items, item.hasSafe = false) :
    tokens .html items = (entries items).map Entry.token := by
  have hall : items.flatMap (Item.tokens .html)
      = (items.flatMap Item.entries).map Entry.token := by
    rw [List.map_flatMap, List.flatMap_def, List.flatMap_def]
    have hitems := List.map_congr_left fun item hitem => itemTokens_html (h item hitem)
    exact congrArg List.flatten hitems
  rw [tokens, entries, hall, List.filter_map, eraseDups_map fun _ _ => token_injective]
  congr 3
  funext e
  simp [isEmpty_token]

/-! ## Splitting between tokens -/

theorem addToFirst_addToFirst (as bs : List Char) (ps : List (List Char)) :
    addToFirst as (addToFirst bs ps) = addToFirst (as ++ bs) ps := by
  cases ps <;> simp [addToFirst]

theorem splitAtSpaces_quote (quoted : Bool) (rest : List Char) :
    splitAtSpaces quoted ('"' :: rest) = addToFirst ['"'] (splitAtSpaces (!quoted) rest) := by
  simp [splitAtSpaces]

/-- Text without quotes stays in one piece if it has no space or stands inside quotes. -/
theorem splitAtSpaces_append {cs : List Char} {quoted : Bool} (hquote : '"' ∉ cs)
    (hspace : ' ' ∉ cs ∨ quoted = true) (rest : List Char) :
    splitAtSpaces quoted (cs ++ rest) = addToFirst cs (splitAtSpaces quoted rest) := by
  induction cs with
  | nil =>
    cases hsplit : splitAtSpaces quoted rest with
    | nil =>
      -- there is always a first piece
      cases rest with
      | nil => simp [splitAtSpaces] at hsplit
      | cons c cs =>
        rw [splitAtSpaces] at hsplit
        split at hsplit
        · cases hsplit
        · cases hs : splitAtSpaces (if c = '"' then !quoted else quoted) cs <;>
            simp [hs, addToFirst] at hsplit
    | cons piece more => simp [addToFirst, hsplit]
  | cons c cs ih =>
    rw [List.mem_cons, not_or] at hquote
    have hrest : ' ' ∉ cs ∨ quoted = true :=
      hspace.imp_left fun h hmem => h (List.mem_cons_of_mem _ hmem)
    have hc : ¬(c = ' ' ∧ quoted = false) := by
      rintro ⟨rfl, rfl⟩
      rcases hspace with h | h
      · exact h (List.mem_cons_self ..)
      · cases h
    rw [List.cons_append, splitAtSpaces, if_neg hc, if_neg (Ne.symm hquote.1), ih hquote.2 hrest,
      addToFirst_addToFirst]
    rfl

/-- The token of an entry stays in one piece: its spaces stand inside quotes. -/
theorem splitAtSpaces_token_append {e : Entry} (h : ' ' ∉ e.name.toList) (rest : List Char) :
    splitAtSpaces false (e.token.toList ++ rest)
      = addToFirst e.token.toList (splitAtSpaces false rest) := by
  cases e with
  | flag text =>
    rw [Entry.token, Html.toList_escape]
    refine splitAtSpaces_append (Html.not_mem_escapeChars (Or.inl rfl) _) (Or.inl ?_) rest
    rw [Html.space_mem_escapeChars]
    exact h
  | pair name value =>
    have hname : ' ' ∉ Html.escapeChars name.toList ++ ['='] := by
      rw [List.mem_append, not_or, Html.space_mem_escapeChars]
      exact ⟨h, by decide⟩
    have hquote : '"' ∉ Html.escapeChars name.toList ++ ['='] := by
      rw [List.mem_append, not_or]
      exact ⟨Html.not_mem_escapeChars (Or.inl rfl) _, by decide⟩
    have hvalue := Html.not_mem_escapeChars (d := '"') (Or.inl rfl) value.toList
    rw [toList_token_pair, List.append_assoc, splitAtSpaces_append hquote (Or.inl hname),
      List.cons_append, splitAtSpaces_quote, Bool.not_false, List.append_assoc,
      splitAtSpaces_append hvalue (Or.inr rfl), List.singleton_append, splitAtSpaces_quote,
      addToFirst_addToFirst, addToFirst_addToFirst, addToFirst_addToFirst]
    congr 1
    simp

/-- Joined by spaces, the tokens of entries are split again. -/
theorem splitAtSpaces_intercalate {es : List Entry} (hne : es ≠ [])
    (h : ∀ e ∈ es, ' ' ∉ e.name.toList) :
    splitAtSpaces false (List.intercalate [' '] (es.map (·.token.toList)))
      = es.map (·.token.toList) := by
  induction es with
  | nil => exact absurd rfl hne
  | cons e rest ih =>
    have he := splitAtSpaces_token_append (h e (List.mem_cons_self ..))
    cases rest with
    | nil =>
      have hend := he []
      rw [List.append_nil] at hend
      simp [hend, splitAtSpaces, addToFirst]
    | cons f rest =>
      have hrest := ih (by simp) fun g hg => h g (List.mem_cons_of_mem _ hg)
      simp only [List.map_cons] at hrest ⊢
      rw [List.intercalate_cons_cons, List.append_assoc, he, List.singleton_append, splitAtSpaces,
        if_pos ⟨rfl, rfl⟩, hrest]
      simp [addToFirst]

theorem toList_write {items : List Item} (hsafe : ∀ item ∈ items, item.hasSafe = false) :
    (write .html items).toList
      = List.intercalate [' '] ((entries items).map (·.token.toList)) := by
  rw [write, tokens_eq hsafe, String.toList_intercalate, List.map_map]
  rfl

/-- The pieces of attribute text are its tokens. -/
theorem pieces_write {items : List Item} (hsafe : ∀ item ∈ items, item.hasSafe = false)
    (hspace : ∀ e ∈ entries items, ' ' ∉ e.name.toList) :
    pieces (write .html items).toList = (entries items).map (·.token.toList) := by
  rw [toList_write hsafe, pieces]
  cases hes : entries items with
  | nil => rfl
  | cons e rest =>
    rw [if_neg, splitAtSpaces_intercalate (by simp) (hes ▸ hspace)]
    -- the first token is not empty, so neither is the text
    have hmem : e ∈ entries items := hes ▸ List.mem_cons_self ..
    have hblank : e.isBlank = false := by
      rw [entries, List.mem_eraseDups, List.mem_filter] at hmem
      simpa using hmem.2
    rw [← isEmpty_token, ← Bool.not_eq_true, String.isEmpty_iff,
      ← String.toList_eq_nil_iff] at hblank
    cases rest <;> simp [List.intercalate_cons_cons, hblank]

theorem name_mem_names {item : Item} {e : Entry} (h : e ∈ item.entries) : e.name ∈ item.names := by
  cases item with
  | flag s =>
    simp only [Item.entries, List.mem_singleton] at h
    simp [h, Item.names, Entry.name]
  | flags items =>
    obtain ⟨s, hs, rfl⟩ := List.mem_map.mp h
    exact List.mem_map.mpr ⟨s, hs, rfl⟩
  | map contents =>
    obtain ⟨⟨name, content⟩, hmem, rfl⟩ := List.mem_map.mp h
    exact List.mem_map.mpr ⟨(name, content), (List.mem_filter.mp hmem).1, rfl⟩

/-- Attribute text reads back as what the attribute list says. -/
theorem readText_write {items : List Item} (hsafe : ∀ item ∈ items, item.hasSafe = false)
    (hspace : ∀ item ∈ items, ∀ name ∈ item.names, ' ' ∉ name.toList) :
    readText (write .html items) = some (entries items) := by
  have hnames : ∀ e ∈ entries items, ' ' ∉ e.name.toList := by
    intro e he
    rw [entries, List.mem_eraseDups, List.mem_filter, List.mem_flatMap] at he
    obtain ⟨⟨item, hitem, hmem⟩, -⟩ := he
    exact hspace item hitem e.name (name_mem_names hmem)
  rw [readText, pieces_write hsafe hnames]
  -- every token reads back as its entry
  induction entries items with
  | nil => rfl
  | cons e rest ih => simp [ofPiece?_token, ih]

/-- Flags, values of all shapes, a repeated flag and the reserved name. -/
theorem readText_write_mixed :
    readText (write .html
        [.flag (.text "a&b"), .flags [.text "", .text "a&b", .text "\"on\""],
          .map [("class", .list [.text "x y", .null, .text "<", .text "x y"]),
            ("__keywords", .scalar (.bool true)), ("data-'n'", .scalar .null),
            ("style",
              .flags [("bold", true), ("__keywords", true), ("thin", false), ("b>c", true)])]])
      = some [.flag "a&b", .flag "\"on\"", .pair "class" "x y  <", .pair "data-'n'" "",
          .pair "style" "bold b>c"] := by
  refine (readText_write ?_ ?_).trans ?_
  · decide
  · decide
  · decide

end TagTemplate.Attribute
