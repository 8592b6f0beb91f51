import TagTemplate.Attribute.Text
import TagTemplate.Proofs.Html.Markup
import TagTemplate.Proofs.Success
import TagTemplate.Proofs.Value.EverySafe

/-!
# Attributes make no markup

Names, flags and values are escaped when an attribute list is written, wherever they stand in an
item; only safe text is not. So if the values that the items are made of hold clean safe text only,
the text of the whole list is clean.

> `clean_write_ofValues`: the attribute list of such values holds no angle bracket and no
> apostrophe.
-/

namespace TagTemplate.Attribute

/-- The scalar is not safe text that makes markup. -/
def Scalar.Clean : Scalar → Prop
  | .safe s => s.Clean
  | _ => True

/-- The safe text in the value of an attribute is clean. -/
def Content.Clean : Content → Prop
  | .scalar s => s.Clean
  | .list items => ∀ s ∈ items, s.Clean
  | .safe s => s.Clean
  | .flags _ => True

/-- The safe text in an item is clean. -/
def Item.Clean : Item → Prop
  | .flag s => s.Clean
  | .flags items => ∀ s ∈ items, s.Clean
  | .map entries => ∀ e ∈ entries, e.2.Clean

/-! ## Items of clean values -/

theorem Scalar.clean_of_ofValue? {v : Value} {s : Scalar} (hv : v.EverySafe SafeText.Clean)
    (h : ofValue? v = some s) : s.Clean := by
  cases v with
  | safe s =>
    cases h
    exact hv
  | list items => cases h
  | map entries => cases h
  | _ =>
    cases h
    trivial

theorem Scalar.clean_of_ofValue {v : Value} {s : Scalar} (hv : v.EverySafe SafeText.Clean)
    (h : ofValue v = .ok s) : s.Clean := by
  unfold ofValue at h
  split at h
  next s' hs =>
    cases h
    exact clean_of_ofValue? hv hs
  next => cases h

theorem Scalar.clean_of_ofItems :
    ∀ {items : List Value} {scalars : List Scalar}, (∀ v ∈ items, v.EverySafe SafeText.Clean) →
      ofItems items = .ok scalars → ∀ s ∈ scalars, s.Clean
  | [], scalars, _, h => by
    cases h
    exact fun s hs => absurd hs List.not_mem_nil
  | v :: rest, scalars, hv, h => by
    obtain ⟨hhead, hrest⟩ := List.forall_mem_cons.mp hv
    unfold ofItems at h
    split at h
    next => cases ‹v :: rest = []›
    next heq =>
      cases heq
      exact clean_of_ofItems hrest h
    next heq =>
      cases heq
      split at h
      next s hs =>
        obtain ⟨more, hmore, rfl⟩ := map_eq_ok h
        exact List.forall_mem_cons.mpr
          ⟨clean_of_ofValue? hhead hs, clean_of_ofItems hrest hmore⟩
      next => cases h

theorem Content.clean_of_ofValue {v : Value} {content : Content}
    (hv : v.EverySafe SafeText.Clean) (h : ofValue v = .ok content) : content.Clean := by
  unfold ofValue at h
  split at h
  next items =>
    obtain ⟨scalars, hscalars, rfl⟩ := map_eq_ok h
    exact Scalar.clean_of_ofItems (Value.everySafe_list.mp hv) hscalars
  next =>
    cases h
    exact hv
  next =>
    cases h
    trivial
  next =>
    obtain ⟨s, hs, rfl⟩ := map_eq_ok h
    exact Scalar.clean_of_ofValue hv hs

theorem Item.clean_of_contents :
    ∀ {entries : List (String × Value)} {contents : Entries Content},
      (∀ e ∈ entries, e.2.EverySafe SafeText.Clean) → Item.contents entries = .ok contents →
        ∀ e ∈ contents, e.2.Clean
  | [], contents, _, h => by
    cases h
    exact fun e he => absurd he List.not_mem_nil
  | (name, v) :: rest, contents, hv, h => by
    obtain ⟨hhead, hrest⟩ := List.forall_mem_cons.mp hv
    unfold Item.contents at h
    split at h
    next content hcontent =>
      obtain ⟨more, hmore, rfl⟩ := map_eq_ok h
      exact List.forall_mem_cons.mpr
        ⟨Content.clean_of_ofValue hhead hcontent, clean_of_contents hrest hmore⟩
    next => cases h

theorem Item.clean_of_ofValue {v : Value} {item : Item} (hv : v.EverySafe SafeText.Clean)
    (h : ofValue v = .ok (some item)) : item.Clean := by
  unfold ofValue at h
  split at h
  next => cases h
  next => cases h
  next items =>
    obtain ⟨scalars, hscalars, heq⟩ := map_eq_ok h
    cases heq
    exact Scalar.clean_of_ofItems (Value.everySafe_list.mp hv) hscalars
  next entries =>
    obtain ⟨contents, hcontents, heq⟩ := map_eq_ok h
    cases heq
    exact clean_of_contents (Value.everySafe_map.mp hv) hcontents
  next =>
    obtain ⟨s, hs, heq⟩ := map_eq_ok h
    cases heq
    exact Scalar.clean_of_ofValue hv hs

theorem Item.clean_of_ofValues :
    ∀ {values : List Value} {items : List Item}, (∀ v ∈ values, v.EverySafe SafeText.Clean) →
      ofValues values = .ok items → ∀ item ∈ items, item.Clean
  | [], items, _, h => by
    cases h
    exact fun item hitem => absurd hitem List.not_mem_nil
  | v :: rest, items, hv, h => by
    obtain ⟨hhead, hrest⟩ := List.forall_mem_cons.mp hv
    unfold ofValues at h
    split at h
    next item hitem =>
      obtain ⟨more, hmore, rfl⟩ := map_eq_ok h
      exact List.forall_mem_cons.mpr ⟨clean_of_ofValue hhead hitem, clean_of_ofValues hrest hmore⟩
    next => exact clean_of_ofValues hrest h
    next => cases h

/-! ## The text of clean items -/

theorem Scalar.clean_escaped {s : Scalar} (h : s.Clean) : Html.Clean (s.escaped .html) := by
  cases s with
  | null => rfl
  | safe s => exact h
  | _ => exact Html.clean_escape _

theorem Content.clean_write {content : Content} (h : content.Clean) :
    Html.Clean (content.write .html) := by
  cases content with
  | scalar s => exact Scalar.clean_escaped h
  | list items =>
    refine Html.clean_intercalate Html.clean_space fun text htext => ?_
    obtain ⟨s, hs, rfl⟩ := List.mem_map.mp (List.mem_eraseDups.mp htext)
    exact Scalar.clean_escaped (h s hs)
  | safe s => exact h
  | flags entries =>
    refine Html.clean_intercalate Html.clean_space fun text htext => ?_
    obtain ⟨e, -, rfl⟩ := List.mem_map.mp htext
    exact Html.clean_escape _

theorem Item.clean_tokens {item : Item} (h : item.Clean) :
    ∀ t ∈ item.tokens .html, Html.Clean t := by
  intro t ht
  cases item with
  | flag s =>
    cases List.mem_singleton.mp ht
    exact Scalar.clean_escaped h
  | flags items =>
    obtain ⟨s, hs, rfl⟩ := List.mem_map.mp ht
    exact Scalar.clean_escaped (h s hs)
  | map entries =>
    obtain ⟨e, he, rfl⟩ := List.mem_map.mp ht
    have hvalue := Content.clean_write (h e (List.mem_filter.mp he).1)
    -- the quotes around a value are no markup
    show Html.Clean (writePair .html e.1 e.2)
    exact (((Html.clean_escape e.1).append (by decide)).append hvalue).append (by decide)

theorem clean_write {items : List Item} (h : ∀ item ∈ items, item.Clean) :
    Html.Clean (write .html items) := by
  refine Html.clean_intercalate Html.clean_space fun t ht => ?_
  obtain ⟨item, hitem, hmem⟩ :=
    List.mem_flatMap.mp (List.mem_filter.mp (List.mem_eraseDups.mp ht)).1
  exact Item.clean_tokens (h item hitem) t hmem

/-- The attribute list of values whose safe text is clean is clean. -/
theorem clean_write_ofValues {values : List Value} {items : List Item}
    (hv : ∀ v ∈ values, v.EverySafe SafeText.Clean) (h : Item.ofValues values = .ok items) :
    Html.Clean (write .html items) :=
  clean_write (Item.clean_of_ofValues hv h)

end TagTemplate.Attribute
