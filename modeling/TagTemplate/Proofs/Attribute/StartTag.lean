import TagTemplate.Proofs.Attribute.ReadBack

/-!
# Attributes as a start tag has them

Escaping keeps the text of a flag or of a name from closing the tag. It does not keep it in one
piece: a space or a slash ends the name of an attribute, and an equals sign begins its value
(`readStartTag_handler`). `readStartTag` is a reader of the attributes of a start tag as a browser
has one, and for it the escaped text of names that are `Bare`, without these characters, is what the
attribute list says:

> `readStartTag_write`: with bare names every token is one attribute, a flag has no value, and no
> token is empty.

`bare_of_readFrom_token` says that no name can do with less: behind a flag, an entry is read as what
it is only if its name is bare.
-/

namespace TagTemplate.Attribute

/-! ## A reader of start tags -/

/-- An attribute as it stands in a start tag, with the text of the name and of the value. Character
references in them are not yet read. -/
structure Source where
  name : List Char
  value : Option (List Char)
  deriving DecidableEq

/-- Where in a start tag a reader is, with what it has read of an attribute. -/
inductive Place where
  | between
  | name (name : List Char)
  | afterName (name : List Char)
  | beforeValue (name : List Char)
  | value (quote : Option Char) (name value : List Char)

/-- White space of ASCII. -/
def isSpace (c : Char) : Bool :=
  c == ' ' || c == '\t' || c == '\n' || c == '\x0c' || c == '\r'

/-- Reads the attributes of a start tag up to its end. An equals sign in front of a name belongs to
the name. Nothing is read if a quoted value does not end. -/
def readFrom : Place → List Char → Option (List Source)
  | .between, [] => some []
  | .between, c :: cs =>
    if isSpace c ∨ c = '/' then readFrom .between cs
    else if c = '>' then some []
    else readFrom (.name [c]) cs
  | .name n, [] => some [⟨n, none⟩]
  | .name n, c :: cs =>
    if isSpace c then readFrom (.afterName n) cs
    else if c = '/' then (readFrom .between cs).map (⟨n, none⟩ :: ·)
    else if c = '>' then some [⟨n, none⟩]
    else if c = '=' then readFrom (.beforeValue n) cs
    else readFrom (.name (n ++ [c])) cs
  | .afterName n, [] => some [⟨n, none⟩]
  | .afterName n, c :: cs =>
    if isSpace c then readFrom (.afterName n) cs
    else if c = '/' then (readFrom .between cs).map (⟨n, none⟩ :: ·)
    else if c = '>' then some [⟨n, none⟩]
    else if c = '=' then readFrom (.beforeValue n) cs
    else (readFrom (.name [c]) cs).map (⟨n, none⟩ :: ·)
  | .beforeValue n, [] => some [⟨n, some []⟩]
  | .beforeValue n, c :: cs =>
    if isSpace c then readFrom (.beforeValue n) cs
    else if c = '"' ∨ c = '\'' then readFrom (.value (some c) n []) cs
    else if c = '>' then some [⟨n, some []⟩]
    else readFrom (.value none n [c]) cs
  | .value none n v, [] => some [⟨n, some v⟩]
  | .value none n v, c :: cs =>
    if isSpace c then (readFrom .between cs).map (⟨n, some v⟩ :: ·)
    else if c = '>' then some [⟨n, some v⟩]
    else readFrom (.value none n (v ++ [c])) cs
  | .value (some _) _ _, [] => none
  | .value (some q) n v, c :: cs =>
    if c = q then (readFrom .between cs).map (⟨n, some v⟩ :: ·)
    else readFrom (.value (some q) n (v ++ [c])) cs

/-- The attributes of a start tag with this attribute list. -/
def readStartTag (text : String) : Option (List Source) :=
  readFrom .between text.toList

/-- How an entry stands in a start tag. -/
def Entry.source : Entry → Source
  | .flag text => ⟨Html.escapeChars text.toList, none⟩
  | .pair name value => ⟨Html.escapeChars name.toList, some (Html.escapeChars value.toList)⟩

/-! ## Bare names -/

/-- A character that does not end the name of an attribute, unless it is an angle bracket. -/
def IsBareChar (c : Char) : Prop :=
  ¬ isSpace c ∧ c ≠ '/' ∧ c ≠ '='

instance (c : Char) : Decidable (IsBareChar c) :=
  inferInstanceAs (Decidable (_ ∧ _))

/-- A text that is not empty and has no white space, no slash and no equals sign. -/
def Bare (text : String) : Prop :=
  text ≠ "" ∧ ∀ c ∈ text.toList, IsBareChar c

instance (text : String) : Decidable (Bare text) :=
  let _ := List.decidableBAll IsBareChar text.toList
  inferInstanceAs (Decidable (_ ∧ _))

/-- A list of characters that can be looked through. -/
theorem isBareChar_of_all {cs : List Char} (h : cs.all (fun c => decide (IsBareChar c)) = true)
    {c : Char} (hc : c ∈ cs) : IsBareChar c :=
  of_decide_eq_true (List.all_eq_true.mp h c hc)

/-- Entities are bare, and nothing else is escaped. -/
theorem isBareChar_of_mem_escapeChars {cs : List Char} (h : ∀ c ∈ cs, IsBareChar c) :
    ∀ c ∈ Html.escapeChars cs, IsBareChar c ∧ c ≠ '>' := by
  intro d hd
  refine ⟨?_, fun hgt => Html.not_mem_escapeChars (by simp [hgt]) cs hd⟩
  obtain ⟨c, hc, hmem⟩ := List.mem_flatMap.mp hd
  rcases Html.mem_escapeChar hmem with hentity | ⟨rfl, -⟩
  · exact isBareChar_of_all (by decide) hentity
  · exact h d hc

/-! ## Reading tokens -/

/-- A character of a name is read on. -/
theorem readFrom_name_cons {n cs : List Char} {c : Char} (hc : IsBareChar c ∧ c ≠ '>') :
    readFrom (.name n) (c :: cs) = readFrom (.name (n ++ [c])) cs := by
  obtain ⟨⟨hspace, hslash, hequals⟩, hgt⟩ := hc
  rw [readFrom, if_neg hspace, if_neg hslash, if_neg hgt, if_neg hequals]

theorem readFrom_name_append {cs : List Char} (h : ∀ c ∈ cs, IsBareChar c ∧ c ≠ '>')
    (n rest : List Char) :
    readFrom (.name n) (cs ++ rest) = readFrom (.name (n ++ cs)) rest := by
  induction cs generalizing n with
  | nil => rw [List.nil_append, List.append_nil]
  | cons c cs ih =>
    obtain ⟨hc, hcs⟩ := List.forall_mem_cons.mp h
    rw [List.cons_append, readFrom_name_cons hc, ih hcs, List.append_assoc, List.singleton_append]

theorem readFrom_between_cons {c : Char} {cs : List Char} (hc : IsBareChar c ∧ c ≠ '>') :
    readFrom .between (c :: cs) = readFrom (.name [c]) cs := by
  obtain ⟨⟨hspace, hslash, -⟩, hgt⟩ := hc
  rw [readFrom, if_neg (not_or.mpr ⟨hspace, hslash⟩), if_neg hgt]

/-- A name that is bare is read whole. -/
theorem readFrom_between_name {cs : List Char} (hne : cs ≠ [])
    (h : ∀ c ∈ cs, IsBareChar c ∧ c ≠ '>') (rest : List Char) :
    readFrom .between (cs ++ rest) = readFrom (.name cs) rest := by
  cases cs with
  | nil => exact absurd rfl hne
  | cons c cs =>
    obtain ⟨hc, hcs⟩ := List.forall_mem_cons.mp h
    rw [List.cons_append, readFrom_between_cons hc, readFrom_name_append hcs,
      List.singleton_append]

/-- A value in double quotes is read up to the second one. -/
theorem readFrom_value_append {cs : List Char} (h : '"' ∉ cs) (n v rest : List Char) :
    readFrom (.value (some '"') n v) (cs ++ '"' :: rest) =
      (readFrom .between rest).map (⟨n, some (v ++ cs)⟩ :: ·) := by
  induction cs generalizing v with
  | nil => rw [List.nil_append, readFrom, if_pos rfl, List.append_nil]
  | cons c cs ih =>
    rw [List.mem_cons, not_or] at h
    rw [List.cons_append, readFrom, if_neg (Ne.symm h.1), ih h.2, List.append_assoc,
      List.singleton_append]

theorem escapeChars_bare {text : String} (h : Bare text) :
    Html.escapeChars text.toList ≠ [] ∧
      ∀ c ∈ Html.escapeChars text.toList, IsBareChar c ∧ c ≠ '>' := by
  refine ⟨?_, isBareChar_of_mem_escapeChars h.2⟩
  rw [Ne, Html.escapeChars_eq_nil, String.toList_eq_nil_iff]
  exact h.1

/-- A token begins with its name. -/
theorem exists_token_eq_append (e : Entry) :
    ∃ rest, e.token.toList = Html.escapeChars e.name.toList ++ rest := by
  cases e with
  | flag text =>
    rw [Entry.token, Html.toList_escape]
    exact ⟨[], (List.append_nil _).symm⟩
  | pair name value =>
    rw [toList_token_pair, List.append_assoc]
    exact ⟨_, rfl⟩

theorem token_eq_cons {e : Entry} (h : Bare e.name) :
    ∃ c cs, e.token.toList = c :: cs ∧ IsBareChar c ∧ c ≠ '>' := by
  obtain ⟨hne, hall⟩ := escapeChars_bare h
  obtain ⟨rest, htoken⟩ := exists_token_eq_append e
  obtain ⟨c, cs, hcs⟩ := List.exists_cons_of_ne_nil hne
  rw [hcs] at hall htoken
  exact ⟨c, cs ++ rest, htoken, hall c (List.mem_cons_self ..)⟩

theorem readFrom_pair_append {name : String} (h : Bare name) (value : String) (rest : List Char) :
    readFrom .between ((Entry.pair name value).token.toList ++ rest) =
      (readFrom .between rest).map ((Entry.pair name value).source :: ·) := by
  obtain ⟨hne, hall⟩ := escapeChars_bare h
  have hquote := Html.not_mem_escapeChars (d := '"') (Or.inl rfl) value.toList
  rw [toList_token_pair, List.append_assoc, List.append_assoc, readFrom_between_name hne hall,
    List.singleton_append, List.cons_append, List.append_assoc]
  show readFrom (.value (some '"') _ []) (Html.escapeChars value.toList ++ '"' :: rest) = _
  rw [readFrom_value_append hquote]
  rfl

/-- The last token is one attribute. -/
theorem readFrom_token {e : Entry} (h : Bare e.name) :
    readFrom .between e.token.toList = some [e.source] := by
  cases e with
  | flag text =>
    obtain ⟨hne, hall⟩ := escapeChars_bare (show Bare text from h)
    have hread := readFrom_between_name hne hall []
    rw [List.append_nil] at hread
    rw [Entry.token, Html.toList_escape, hread]
    rfl
  | pair name value =>
    have hread := readFrom_pair_append h value []
    rw [List.append_nil] at hread
    exact hread

/-- A token in front of another is one attribute, and the other one is read next. -/
theorem readFrom_token_append {e : Entry} (h : Bare e.name) {c : Char}
    (hc : IsBareChar c ∧ c ≠ '>') (cs : List Char) :
    readFrom .between (e.token.toList ++ ' ' :: c :: cs) =
      (readFrom .between (c :: cs)).map (e.source :: ·) := by
  cases e with
  | flag text =>
    obtain ⟨hne, hall⟩ := escapeChars_bare (show Bare text from h)
    rw [Entry.token, Html.toList_escape, readFrom_between_name hne hall, readFrom_between_cons hc]
    obtain ⟨⟨hspace, hslash, hequals⟩, hgt⟩ := hc
    show readFrom (.afterName _) (c :: cs) = _
    rw [readFrom, if_neg hspace, if_neg hslash, if_neg hgt, if_neg hequals]
    rfl
  | pair name value => exact readFrom_pair_append h value (' ' :: c :: cs)

/-- Joined tokens begin with a character of a name. -/
theorem intercalate_tokens_eq_cons {e : Entry} (h : Bare e.name) (rest : List Entry) :
    ∃ c cs, List.intercalate [' '] ((e :: rest).map (·.token.toList)) = c :: cs ∧
      IsBareChar c ∧ c ≠ '>' := by
  obtain ⟨c, cs, hcs, hc⟩ := token_eq_cons h
  cases rest with
  | nil =>
    rw [List.map_singleton, List.intercalate_singleton]
    exact ⟨c, cs, hcs, hc⟩
  | cons f rest =>
    rw [List.map_cons, List.map_cons, List.intercalate_cons_cons, hcs]
    exact ⟨c, _, rfl, hc⟩

theorem readFrom_intercalate {es : List Entry} (h : ∀ e ∈ es, Bare e.name) :
    readFrom .between (List.intercalate [' '] (es.map (·.token.toList))) =
      some (es.map Entry.source) := by
  induction es with
  | nil => rfl
  | cons e rest ih =>
    obtain ⟨he, hrest⟩ := List.forall_mem_cons.mp h
    cases rest with
    | nil =>
      rw [List.map_singleton, List.intercalate_singleton, readFrom_token he]
      rfl
    | cons f rest =>
      -- behind the space a name begins; an equals sign there would belong to the token before it
      obtain ⟨c, cs, hmore, hc⟩ := intercalate_tokens_eq_cons (hrest f (List.mem_cons_self ..)) rest
      have hread := ih hrest
      rw [hmore] at hread
      rw [List.map_cons] at hmore
      rw [List.map_cons, List.map_cons, List.intercalate_cons_cons, hmore, List.append_assoc,
        List.singleton_append, readFrom_token_append he hc, hread]
      rfl

/-- The text of an attribute list with bare names: every token is one attribute and none is
empty. -/
theorem readStartTag_write {items : List Item} (hsafe : ∀ item ∈ items, item.hasSafe = false)
    (hbare : ∀ e ∈ entries items, Bare e.name) :
    tokens .html items = (entries items).map Entry.token ∧
      readStartTag (write .html items) = some ((entries items).map Entry.source) ∧
      [] ∉ pieces (write .html items).toList := by
  refine ⟨tokens_eq hsafe, ?_, ?_⟩
  · rw [readStartTag, toList_write hsafe, readFrom_intercalate hbare]
  · have hspace : ∀ e ∈ entries items, ' ' ∉ e.name.toList := by
      intro e he hmem
      exact ((hbare e he).2 ' ' hmem).1 rfl
    rw [pieces_write hsafe hspace]
    intro hmem
    obtain ⟨e, he, hnil⟩ := List.mem_map.mp hmem
    obtain ⟨c, cs, hcs, -⟩ := token_eq_cons (hbare e he)
    rw [hcs] at hnil
    cases hnil

/-- Flags and a name with characters that are escaped, and a value with characters that would end a
name. -/
def quotedItems : List Item :=
  [.flag (.text "a&b"), .flags [.null, .text ">on"],
    .map [("data-'n'", .scalar (.text "x y=/>\"")), ("__keywords", .scalar (.bool true))]]

theorem readStartTag_quotedItems :
    tokens .html quotedItems =
        ["a&amp;b", "&gt;on", "data-&#39;n&#39;=\"x y=/&gt;&quot;\""] ∧
      readStartTag (write .html quotedItems) =
        some [⟨"a&amp;b".toList, none⟩, ⟨"&gt;on".toList, none⟩,
          ⟨"data-&#39;n&#39;".toList, some "x y=/&gt;&quot;".toList⟩] ∧
      [] ∉ pieces (write .html quotedItems).toList := by
  have hsafe : ∀ item ∈ quotedItems, item.hasSafe = false := by decide
  obtain ⟨htokens, hread, hgap⟩ := readStartTag_write hsafe (by decide)
  refine ⟨htokens.trans ?_, hread.trans ?_, hgap⟩
  · decide +kernel
  · decide +kernel

/-- With a space and an equals sign in it, the text of one flag is two attributes, and one of them
has a value. -/
theorem readStartTag_handler :
    tokens .html [.flag (.text "a onclick=x")] = ["a onclick=x"] ∧
      readStartTag (write .html [.flag (.text "a onclick=x")]) =
        some [⟨['a'], none⟩, ⟨"onclick".toList, some ['x']⟩] := by
  decide +kernel

/-! ## Names have to be bare -/

/-- A name as a reader has it: nothing ends a name, and only its first character can be an equals
sign. -/
def IsRead : List Char → Prop
  | [] => False
  | c :: cs => (¬ isSpace c ∧ c ≠ '/') ∧ ∀ d ∈ cs, IsBareChar d

theorem IsRead.append {n : List Char} (h : IsRead n) {c : Char} (hc : IsBareChar c) :
    IsRead (n ++ [c]) := by
  cases n with
  | nil => exact h.elim
  | cons d ds =>
    refine ⟨h.1, fun e he => ?_⟩
    rcases List.mem_append.mp he with he | he
    · exact h.2 e he
    · rw [List.mem_singleton.mp he]
      exact hc

/-- What has been read of a name so far can be one. -/
def Place.Read : Place → Prop
  | .between => True
  | .name n => IsRead n
  | .afterName n => IsRead n
  | .beforeValue n => IsRead n
  | .value _ n _ => IsRead n

/-- One more attribute, in front of what was read behind it. -/
theorem forall_of_map_cons {P : Source → Prop} {s : Source} {more : Option (List Source)}
    {sources : List Source} (h : more.map (s :: ·) = some sources) (hs : P s)
    (hmore : ∀ {rest}, more = some rest → ∀ t ∈ rest, P t) : ∀ t ∈ sources, P t := by
  obtain ⟨rest, hrest, rfl⟩ := Option.map_eq_some_iff.mp h
  exact List.forall_mem_cons.mpr ⟨hs, hmore hrest⟩

theorem isRead_of_readFrom {p : Place} {cs : List Char} {sources : List Source} (hp : p.Read)
    (h : readFrom p cs = some sources) : ∀ s ∈ sources, IsRead s.name := by
  fun_induction readFrom p cs generalizing sources with
  -- the end of the attributes
  | case1 | case3 =>
    cases h
    exact fun s hs => absurd hs List.not_mem_nil
  | case5 | case8 | case11 | case14 | case17 | case20 | case22 | case24 =>
    cases h
    exact List.forall_mem_singleton.mpr hp
  | case26 => cases h
  -- further into the same attribute
  | case6 n c cs _ ih | case9 n cs _ _ _ ih | case12 n c cs _ ih | case15 n cs _ _ _ ih
  | case18 n c cs _ ih | case19 n c cs _ _ ih | case21 n c cs _ _ _ ih | case25 n v c cs _ _ ih
  | case28 n v q c cs _ ih => exact ih hp h
  -- between attributes
  | case2 c cs _ ih => exact ih trivial h
  -- a name begins or goes on
  | case4 c cs hsep _ ih =>
    exact ih ⟨not_or.mp hsep, fun d hd => absurd hd List.not_mem_nil⟩ h
  | case10 n c cs hspace hslash _ hequals ih =>
    exact ih (IsRead.append hp ⟨hspace, hslash, hequals⟩) h
  -- an attribute ends
  | case7 n cs _ ih | case13 n cs _ ih | case23 n v c cs _ ih | case27 n v c cs ih =>
    exact forall_of_map_cons h hp fun hrest => ih trivial hrest
  | case16 n c cs hspace hslash _ _ ih =>
    have hname : Place.Read (.name [c]) :=
      ⟨⟨hspace, hslash⟩, fun d hd => absurd hd List.not_mem_nil⟩
    exact forall_of_map_cons h hp fun hrest => ih hname hrest

/-- What has been read as far as a value has one. -/
theorem exists_value_of_readFrom {n v cs : List Char} {quote : Option Char} {sources : List Source}
    (h : readFrom (.value quote n v) cs = some sources) :
    ∃ w rest, sources = ⟨n, some w⟩ :: rest := by
  induction cs generalizing v with
  | nil =>
    cases quote with
    | none =>
      cases h
      exact ⟨v, [], rfl⟩
    | some q => cases h
  | cons c cs ih =>
    cases quote with
    | none =>
      rw [readFrom] at h
      split at h
      next =>
        obtain ⟨rest, -, rfl⟩ := Option.map_eq_some_iff.mp h
        exact ⟨v, rest, rfl⟩
      next =>
        split at h
        next =>
          cases h
          exact ⟨v, [], rfl⟩
        next => exact ih h
    | some q =>
      rw [readFrom] at h
      split at h
      next =>
        obtain ⟨rest, -, rfl⟩ := Option.map_eq_some_iff.mp h
        exact ⟨v, rest, rfl⟩
      next => exact ih h

theorem exists_value_of_readFrom_beforeValue {n cs : List Char} {sources : List Source}
    (h : readFrom (.beforeValue n) cs = some sources) :
    ∃ w rest, sources = ⟨n, some w⟩ :: rest := by
  induction cs with
  | nil =>
    cases h
    exact ⟨[], [], rfl⟩
  | cons c cs ih =>
    rw [readFrom] at h
    split at h
    next => exact ih h
    next =>
      split at h
      next => exact exists_value_of_readFrom h
      next =>
        split at h
        next =>
          cases h
          exact ⟨[], [], rfl⟩
        next => exact exists_value_of_readFrom h

/-- Escaping leaves a character alone that is not bare. -/
theorem mem_escapeChars_of_not_isBareChar {c : Char} (h : ¬ IsBareChar c) {cs : List Char}
    (hc : c ∈ cs) : c ∈ Html.escapeChars cs := by
  have hne : ∀ d ∈ ['&', '"', '\'', '<', '>'], c ≠ d := by
    intro d hd heq
    rw [heq] at h
    exact h (isBareChar_of_all (by decide) hd)
  have hself : Html.escapeChar c = [c] :=
    Html.escapeChar_eq_self (hne _ (by decide)) (hne _ (by decide)) (hne _ (by decide))
      (hne _ (by decide)) (hne _ (by decide))
  exact List.mem_flatMap.mpr ⟨c, hc, by rw [hself]; exact List.mem_singleton_self c⟩

/-- Behind a flag, an entry is read as what it is only if its name is bare. -/
theorem bare_of_readFrom_token {e : Entry}
    (h : readFrom .between ('a' :: ' ' :: e.token.toList) = some [⟨['a'], none⟩, e.source]) :
    Bare e.name := by
  have hmem : e.source ∈ [⟨['a'], none⟩, e.source] :=
    List.mem_cons_of_mem _ (List.mem_singleton_self _)
  have hread : IsRead e.source.name := isRead_of_readFrom (p := .between) trivial h _ hmem
  rw [show e.source.name = Html.escapeChars e.name.toList by cases e <;> rfl] at hread
  obtain ⟨rest, htoken⟩ := exists_token_eq_append e
  cases hname : Html.escapeChars e.name.toList with
  | nil =>
    rw [hname] at hread
    exact hread.elim
  | cons c cs =>
    rw [hname] at hread htoken
    have hequals : c ≠ '=' := by
      rintro rfl
      rw [htoken] at h
      obtain ⟨w, more, hvalue⟩ := exists_value_of_readFrom_beforeValue (n := ['a']) h
      cases hvalue
    have hall : ∀ d ∈ c :: cs, IsBareChar d :=
      List.forall_mem_cons.mpr ⟨⟨hread.1.1, hread.1.2, hequals⟩, hread.2⟩
    refine ⟨fun hnil => ?_, fun d hd => ?_⟩
    · rw [hnil] at hname
      cases hname
    · refine Decidable.byContradiction fun hbare => ?_
      have hmem := mem_escapeChars_of_not_isBareChar hbare hd
      rw [hname] at hmem
      exact hbare (hall d hmem)

end TagTemplate.Attribute
