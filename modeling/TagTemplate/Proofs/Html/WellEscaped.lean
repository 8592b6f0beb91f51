import TagTemplate.Proofs.Html.Unescape

/-!
# Well-escaped texts

The texts that escaping writes can be told by looking at them: no quote and no angle bracket stands
in them, and an ampersand only where an entity begins (`WellEscaped`). That escaped texts are so is
seen at each ampersand, which was written as the first character of an entity and never inside one.
The other way round, a text of this kind begins with what is written for some character, and what is
behind it is of this kind again, so that it is taken apart into what single characters are written as.

> `exists_escape_iff_wellEscaped`: escaping is a bijection onto these texts, and reading the entities
> back is its inverse.
-/

namespace TagTemplate.Html

/-- The ways in which the special characters are written. -/
def entities : List (List Char) :=
  ["&amp;".toList, "&quot;".toList, "&#39;".toList, "&lt;".toList, "&gt;".toList]

/-- No quote and no angle bracket stands in the text, and every ampersand in it begins an entity. -/
structure WellEscaped (text : List Char) : Prop where
  notMem : ∀ c ∈ ['"', '\'', '<', '>'], c ∉ text
  entity : ∀ rest, '&' :: rest <:+ text → ∃ e ∈ entities, e <+: '&' :: rest

variable {text back rest : List Char}

theorem WellEscaped.of_suffix (h : WellEscaped text) (hback : back <:+ text) : WellEscaped back where
  notMem c hc hmem := h.notMem c hc (hback.mem hmem)
  entity rest hrest := h.entity rest (hrest.trans hback)

/-! ## What is written for one character -/

/-- A character is written as an entity, or it is no ampersand and is written as it is. -/
theorem escapeChar_mem_or_eq (c : Char) :
    escapeChar c ∈ entities ∨ (c ≠ '&' ∧ escapeChar c = [c]) := by
  unfold escapeChar
  split
  next => exact Or.inl (by decide)
  next => exact Or.inl (by decide)
  next => exact Or.inl (by decide)
  next => exact Or.inl (by decide)
  next => exact Or.inl (by decide)
  next hamp _ _ _ _ => exact Or.inr ⟨hamp, rfl⟩

/-- Each entity is what some character is written as. -/
theorem exists_escapeChar_of_mem {e : List Char} (he : e ∈ entities) : ∃ c, escapeChar c = e := by
  simp only [entities, List.mem_cons, List.not_mem_nil, or_false] at he
  rcases he with rfl | rfl | rfl | rfl | rfl
  · exact ⟨'&', rfl⟩
  · exact ⟨'"', rfl⟩
  · exact ⟨'\'', rfl⟩
  · exact ⟨'<', rfl⟩
  · exact ⟨'>', rfl⟩

/-- An entity begins with an ampersand and holds no other one. -/
theorem exists_tail_of_mem {e : List Char} (he : e ∈ entities) :
    ∃ tail, e = '&' :: tail ∧ '&' ∉ tail := by
  have htail : ∀ e ∈ entities, e = '&' :: e.tail ∧ '&' ∉ e.tail := by decide
  exact ⟨e.tail, htail e he⟩

theorem escapeChar_ne_nil (c : Char) : escapeChar c ≠ [] := by
  rcases escapeChar_mem_or_eq c with hmem | ⟨-, hself⟩
  · obtain ⟨tail, htail, -⟩ := exists_tail_of_mem hmem
    rw [htail]
    exact List.cons_ne_nil '&' tail
  · rw [hself]
    exact List.cons_ne_nil c []

/-! ## Escaped texts are well-escaped -/

/-- An ampersand behind a text without one stands in what follows that text. -/
theorem suffix_of_suffix_append {front : List Char} (hfront : '&' ∉ front)
    (h : '&' :: rest <:+ front ++ back) : '&' :: rest <:+ back := by
  induction front with
  | nil => exact h
  | cons c front ih =>
    rw [List.cons_append, List.suffix_cons_iff] at h
    rcases h with h | h
    · exact absurd (List.cons.inj h).1 (List.ne_of_not_mem_cons hfront)
    · exact ih (List.not_mem_of_not_mem_cons hfront) h

theorem exists_entity_of_suffix (cs : List Char) (h : '&' :: rest <:+ escapeChars cs) :
    ∃ e ∈ entities, e <+: '&' :: rest := by
  induction cs with
  | nil => exact absurd (List.suffix_nil.mp h) (List.cons_ne_nil _ _)
  | cons c cs ih =>
    rw [escapeChars_cons] at h
    rcases escapeChar_mem_or_eq c with hmem | ⟨hne, hself⟩
    · obtain ⟨tail, htail, hamp⟩ := exists_tail_of_mem hmem
      rw [htail, List.cons_append, List.suffix_cons_iff] at h
      rcases h with h | h
      · -- the ampersand is the one that this entity begins with
        refine ⟨escapeChar c, hmem, escapeChars cs, ?_⟩
        rw [h, htail, List.cons_append]
      · exact ih (suffix_of_suffix_append hamp h)
    · have hnot : '&' ∉ escapeChar c := by
        rw [hself, List.mem_singleton]
        exact fun heq => hne heq.symm
      exact ih (suffix_of_suffix_append hnot h)

theorem wellEscaped_escapeChars (cs : List Char) : WellEscaped (escapeChars cs) where
  notMem c hc := not_mem_escapeChars (by simpa using hc) cs
  entity _ h := exists_entity_of_suffix cs h

/-! ## Well-escaped texts are escaped -/

/-- A well-escaped text begins with what is written for some character. -/
theorem WellEscaped.exists_escapeChar {d : Char} (h : WellEscaped (d :: text)) :
    ∃ c back, escapeChar c ++ back = d :: text := by
  by_cases hamp : d = '&'
  · subst hamp
    obtain ⟨e, he, back, hback⟩ := h.entity text (List.suffix_refl _)
    obtain ⟨c, rfl⟩ := exists_escapeChar_of_mem he
    exact ⟨c, back, hback⟩
  · -- a character that stands for itself
    have hne : ∀ c ∈ ['"', '\'', '<', '>'], d ≠ c := by
      intro c hc heq
      exact h.notMem c hc (heq ▸ List.mem_cons_self)
    have hself : escapeChar d = [d] :=
      escapeChar_eq_self hamp (hne _ (by decide)) (hne _ (by decide)) (hne _ (by decide))
        (hne _ (by decide))
    exact ⟨d, text, by rw [hself, List.singleton_append]⟩

theorem WellEscaped.exists_escapeChars : ∀ {text : List Char}, WellEscaped text →
    ∃ cs, escapeChars cs = text
  | [], _ => ⟨[], rfl⟩
  | d :: text, h => by
    obtain ⟨c, back, hsplit⟩ := h.exists_escapeChar
    have hshort : back.length < (d :: text).length := by
      have hpos := List.length_pos_iff.mpr (escapeChar_ne_nil c)
      rw [← hsplit, List.length_append]
      omega
    obtain ⟨cs, hcs⟩ := exists_escapeChars (h.of_suffix ⟨escapeChar c, hsplit⟩)
    exact ⟨c :: cs, by rw [escapeChars_cons, hcs, hsplit]⟩
termination_by text => text.length
decreasing_by exact hshort

/-- A text is well-escaped if and only if escaping writes it again after its entities were read. -/
theorem wellEscaped_iff : WellEscaped text ↔ escapeChars (unescapeChars text) = text := by
  constructor
  · intro h
    obtain ⟨cs, rfl⟩ := h.exists_escapeChars
    rw [unescapeChars_escapeChars]
  · intro h
    rw [← h]
    exact wellEscaped_escapeChars _

instance (text : List Char) : Decidable (WellEscaped text) :=
  decidable_of_iff _ wellEscaped_iff.symm

/-- Escaping is a bijection onto the well-escaped texts: reading the entities back undoes it, it
writes these texts and no others, and it writes them from what is read back. -/
theorem exists_escape_iff_wellEscaped :
    (∀ s, unescape (escape s) = s) ∧
      ∀ t, ((∃ s, escape s = t) ↔ WellEscaped t.toList) ∧
        (WellEscaped t.toList ↔ escape (unescape t) = t) := by
  have hagain : ∀ t : String, WellEscaped t.toList ↔ escape (unescape t) = t := by
    intro t
    rw [wellEscaped_iff, ← String.toList_inj, toList_escape, unescape, String.toList_ofList]
  refine ⟨unescape_escape, fun t => ⟨⟨?_, ?_⟩, hagain t⟩⟩
  · rintro ⟨s, rfl⟩
    rw [toList_escape]
    exact wellEscaped_escapeChars _
  · intro h
    exact ⟨unescape t, (hagain t).mp h⟩

/-- An escaped entity is well-escaped, an entity without its end is not. -/
example : WellEscaped "&amp;lt;&#39;".toList ∧ ¬ WellEscaped "a&lt".toList := by
  decide

end TagTemplate.Html
