import TagTemplate.Attribute.Text
import TagTemplate.Proofs.Success

/-!
# The reserved name leaves no trace

The mark of an argument list is an entry like any other until the attributes are written, and it can
stand in every map: among the attributes and among the flags of one. `listWithoutReserved` takes it
out of an evaluated list in both places, whatever it stands for there.

> `writeValue_withoutReserved`: the text of an attribute list does not depend on what is stored under
> the reserved name.

Sorting values into items and writing the items each go through the maps one way or another. So the
entries are followed through both: what is sorted without the mark is what was sorted, without the mark
(`ofValues_withoutReserved`), and is written alike (`write_withoutReserved`). Only sorting can fail, and
without the mark there is less to refuse.
-/

namespace TagTemplate.Attribute

/-! ## Taking the reserved name out -/

/-- The entries that do not bear the reserved name. -/
def unreserved {α : Type} (entries : Entries α) : Entries α :=
  entries.filter fun (name, _) => name != reservedName

/-- A map of flags without the reserved name. -/
def flagsWithoutReserved : Value → Value
  | .map entries => .map (unreserved entries)
  | v => v

/-- A map of attributes without the reserved name, neither among them nor among the flags of one. -/
def itemWithoutReserved : Value → Value
  | .map entries =>
    .map ((unreserved entries).map fun (name, v) => (name, flagsWithoutReserved v))
  | v => v

/-- An evaluated list without the reserved name in the maps of attributes and of flags. -/
def listWithoutReserved : Value → Value
  | .list items => .list (items.map itemWithoutReserved)
  | v => v

/-- The value of an attribute without the reserved name among its flags. -/
def Content.withoutReserved : Content → Content
  | .flags entries => .flags (unreserved entries)
  | content => content

/-- An item without the reserved name. -/
def Item.withoutReserved : Item → Item
  | .map entries =>
    .map ((unreserved entries).map fun (name, content) =>
      (name, content.withoutReserved))
  | item => item

theorem unreserved_map {α β : Type} (f : α → β) (entries : Entries α) :
    unreserved (entries.map fun (name, a) => (name, f a)) =
      (unreserved entries).map fun (name, a) => (name, f a) := by
  rw [unreserved, List.filter_map]
  rfl

theorem unreserved_unreserved {α : Type} (entries : Entries α) :
    unreserved (unreserved entries) = unreserved entries := by
  rw [unreserved, unreserved, List.filter_filter]
  exact List.filter_congr fun entry _ => Bool.and_self _

/-! ## What is written -/

section Write

variable (escaper : Escaper)

theorem Content.write_withoutReserved (content : Content) :
    content.withoutReserved.write escaper = content.write escaper := by
  cases content with
  | flags entries =>
    show " ".intercalate _ = " ".intercalate _
    rw [unreserved, List.filter_filter]
    congr 2
    refine List.filter_congr fun entry _ => ?_
    obtain ⟨name, on⟩ := entry
    cases on <;> simp
  | _ => rfl

theorem Item.tokens_withoutReserved (item : Item) :
    item.withoutReserved.tokens escaper = item.tokens escaper := by
  cases item with
  | map entries =>
    show (unreserved ((unreserved entries).map _)).map _ = (unreserved entries).map _
    rw [unreserved_map, unreserved_unreserved, List.map_map]
    refine List.map_congr_left fun entry _ => ?_
    obtain ⟨name, content⟩ := entry
    show writePair escaper name content.withoutReserved = writePair escaper name content
    rw [writePair, writePair, Content.write_withoutReserved]
  | _ => rfl

theorem write_withoutReserved (items : List Item) :
    write escaper (items.map Item.withoutReserved) = write escaper items := by
  rw [write, write, tokens, tokens, List.flatMap_map]
  simp only [Item.tokens_withoutReserved]

end Write

/-! ## What values are sorted into -/

theorem Content.ofValue_withoutReserved {v : Value} {content : Content}
    (h : ofValue v = .ok content) : ofValue (flagsWithoutReserved v) = .ok content.withoutReserved := by
  cases v with
  | map entries =>
    cases h
    exact congrArg (fun flags => Except.ok (Content.flags flags)) (unreserved_map _ _).symm
  | list items =>
    obtain ⟨scalars, hscalars, rfl⟩ := map_eq_ok h
    exact h
  | _ =>
    cases h
    rfl

theorem Item.contents_withoutReserved :
    ∀ {entries : List (String × Value)} {contents : Entries Content},
      Item.contents entries = .ok contents →
        Item.contents ((unreserved entries).map fun (name, v) => (name, flagsWithoutReserved v)) =
          .ok ((unreserved contents).map fun (name, content) => (name, content.withoutReserved))
  | [], contents, h => by
    cases h
    rfl
  | (name, v) :: rest, contents, h => by
    unfold Item.contents at h
    split at h
    next content hcontent =>
      obtain ⟨more, hmore, rfl⟩ := map_eq_ok h
      have ih := contents_withoutReserved hmore
      by_cases hname : name = reservedName
      · simp only [unreserved, List.filter_cons, hname, bne_self_eq_false] at ih ⊢
        exact ih
      · simp only [unreserved, List.filter_cons, bne_iff_ne.mpr hname, if_true,
          List.map_cons] at ih ⊢
        rw [Item.contents, Content.ofValue_withoutReserved hcontent]
        dsimp only
        rw [ih]
        rfl
    next => cases h

theorem Item.ofValue_withoutReserved {v : Value} {found : Option Item} (h : ofValue v = .ok found) :
    ofValue (itemWithoutReserved v) = .ok (found.map Item.withoutReserved) := by
  cases v with
  | map entries =>
    obtain ⟨contents, hcontents, rfl⟩ := map_eq_ok h
    show (Item.contents _).map _ = _
    rw [contents_withoutReserved hcontents]
    rfl
  | list items =>
    obtain ⟨scalars, hscalars, rfl⟩ := map_eq_ok h
    exact h
  | _ =>
    cases h
    rfl

theorem Item.ofValues_withoutReserved :
    ∀ {values : List Value} {items : List Item}, ofValues values = .ok items →
      ofValues (values.map itemWithoutReserved) = .ok (items.map Item.withoutReserved)
  | [], items, h => by
    cases h
    rfl
  | v :: rest, items, h => by
    unfold ofValues at h
    rw [List.map_cons, ofValues]
    split at h
    next item hitem =>
      obtain ⟨more, hmore, rfl⟩ := map_eq_ok h
      rw [ofValue_withoutReserved hitem]
      dsimp only [Option.map]
      rw [ofValues_withoutReserved hmore]
      rfl
    next hitem =>
      rw [ofValue_withoutReserved hitem]
      exact ofValues_withoutReserved h
    next => cases h

/-- The text of an evaluated list, without the reserved name in it. -/
theorem writeValue_listWithoutReserved {escaper : Escaper} {v : Value} {text : String}
    (h : writeValue escaper v = .ok text) :
    writeValue escaper (listWithoutReserved v) = .ok text := by
  cases v with
  | list values =>
    obtain ⟨items, hitems, rfl⟩ := map_eq_ok h
    show (Item.ofValues _).map _ = _
    rw [Item.ofValues_withoutReserved hitems]
    exact congrArg Except.ok (write_withoutReserved escaper items)
  | _ => cases h

/-- What is stored under the reserved name never matters: without it a list that can be written has
the same text, and so have two lists that can be written and differ in nothing else. -/
theorem writeValue_withoutReserved (escaper : Escaper) :
    (∀ v text, writeValue escaper v = .ok text →
      writeValue escaper (listWithoutReserved v) = .ok text) ∧
    ∀ v w text text', listWithoutReserved v = listWithoutReserved w →
      writeValue escaper v = .ok text → writeValue escaper w = .ok text' → text = text' := by
  refine ⟨fun v text h => writeValue_listWithoutReserved h, fun v w text text' hsame hv hw => ?_⟩
  have hv := writeValue_listWithoutReserved hv
  have hw := writeValue_listWithoutReserved hw
  rw [hsame, hw] at hv
  exact (Except.ok.inj hv).symm

/-- The reserved name in front of an attribute and behind one, among flags, with a list under it, and
as the only name of a map; and the same list without any of these. -/
theorem writeValue_withoutReserved_mixed :
    ∃ v w text text',
      listWithoutReserved v = listWithoutReserved w ∧ writeValue .html v = .ok text ∧
      writeValue .html w = .ok text' ∧ writeValue .html (listWithoutReserved v) = .ok text ∧
      text = text' ∧ text = "checked id=\"x\" class=\"\" style=\"bold\"" := by
  let v : Value := .list [.text "checked", .map [("__keywords", .list [.text "&"]), ("id", .text "x")],
    .map [("class", .map [("__keywords", .bool true)]), ("__keywords", .null)],
    .map [("style", .map [("bold", .int 1), ("__keywords", .map []), ("thin", .null)])]]
  let w : Value := .list [.text "checked", .map [("id", .text "x")], .map [("class", .map [])],
    .map [("style", .map [("bold", .int 1), ("thin", .null)]), ("__keywords", .text "<")]]
  have hv : writeValue .html v = .ok "checked id=\"x\" class=\"\" style=\"bold\"" := rfl
  have hw : writeValue .html w = .ok "checked id=\"x\" class=\"\" style=\"bold\"" := rfl
  have hsame : listWithoutReserved v = listWithoutReserved w := rfl
  have hwithout := (writeValue_withoutReserved .html).1 v _ hv
  exact ⟨v, w, _, _, hsame, hv, hw, hwithout,
    (writeValue_withoutReserved .html).2 v w _ _ hsame hv hw, rfl⟩

end TagTemplate.Attribute
