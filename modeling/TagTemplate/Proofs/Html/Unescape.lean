import TagTemplate.Html.Escape

/-!
# Escaped text reads back

`unescapeChars` undoes `escapeChars`, also in front of any further text
(`unescapeChars_escapeChars_append`): an entity that escaping wrote is read as one
unit, and no entity can arise across the border of two escaped characters, because
the only ampersands in escaped text are those that begin an entity. Escaping is
therefore injective (`escape_injective`), which is what lets everything that
compares escaped texts speak about the raw ones.

The second half says which characters escaped text can hold: never a quote or an
angle bracket (`not_mem_escapeChars`), and a space only where the raw text has one
(`space_mem_escapeChars`).
-/

namespace TagTemplate.Html

/-! ## Reading back -/

theorem unescapeChars_cons_of_ne {c : Char} (h : c ≠ '&') (cs : List Char) :
    unescapeChars (c :: cs) = c :: unescapeChars cs := by
  -- only the left side: the right side calls the same function
  conv => lhs; unfold unescapeChars
  split <;> simp_all

/-- Outside the five special characters escaping changes nothing. -/
theorem escapeChar_eq_self {c : Char} (hamp : c ≠ '&') (hquot : c ≠ '"') (hapos : c ≠ '\'')
    (hlt : c ≠ '<') (hgt : c ≠ '>') : escapeChar c = [c] := by
  unfold escapeChar
  split <;> first | contradiction | rfl

/-- What escaping wrote for one character is read as that character, whatever follows. -/
theorem unescapeChars_escapeChar_append (c : Char) (cs : List Char) :
    unescapeChars (escapeChar c ++ cs) = c :: unescapeChars cs := by
  by_cases hamp : c = '&'
  · subst hamp; rfl
  by_cases hquot : c = '"'
  · subst hquot; rfl
  by_cases hapos : c = '\''
  · subst hapos; rfl
  by_cases hlt : c = '<'
  · subst hlt; rfl
  by_cases hgt : c = '>'
  · subst hgt; rfl
  rw [escapeChar_eq_self hamp hquot hapos hlt hgt, List.singleton_append,
    unescapeChars_cons_of_ne hamp]

theorem unescapeChars_escapeChars_append (cs rest : List Char) :
    unescapeChars (escapeChars cs ++ rest) = cs ++ unescapeChars rest := by
  induction cs with
  | nil => rfl
  | cons c cs ih =>
    rw [escapeChars_cons, List.append_assoc, unescapeChars_escapeChar_append, ih,
      List.cons_append]

/-- Escaping is undone exactly. -/
theorem unescapeChars_escapeChars (cs : List Char) : unescapeChars (escapeChars cs) = cs := by
  have h := unescapeChars_escapeChars_append cs []
  rwa [List.append_nil, show unescapeChars [] = [] from rfl, List.append_nil] at h

theorem unescape_escape (text : String) : unescape (escape text) = text := by
  rw [unescape, toList_escape, unescapeChars_escapeChars, String.ofList_toList]

theorem escape_injective {s t : String} (h : escape s = escape t) : s = t := by
  rw [← unescape_escape s, h, unescape_escape]

/-! ## The characters of escaped text -/

/-- The characters that the five entities are made of. -/
def entityChars : List Char :=
  ['&', 'a', 'm', 'p', ';', 'q', 'u', 'o', 't', '#', '3', '9', 'l', 'g']

/-- A character of escaped text comes from an entity or stands for itself. -/
theorem mem_escapeChar {c d : Char} (h : d ∈ escapeChar c) :
    d ∈ entityChars ∨ (d = c ∧ escapeChar c = [c]) := by
  by_cases hself : escapeChar c = [c]
  · rw [hself, List.mem_singleton] at h
    exact Or.inr ⟨h, hself⟩
  · -- one of the five special characters, whose entities can be looked through
    have hentity : ∀ s ∈ ['&', '"', '\'', '<', '>'], ∀ e ∈ escapeChar s, e ∈ entityChars := by
      simp [escapeChar, entityChars]
    left
    unfold escapeChar at h hself
    split at h
    · exact hentity '&' (by decide) d h
    · exact hentity '"' (by decide) d h
    · exact hentity '\'' (by decide) d h
    · exact hentity '<' (by decide) d h
    · exact hentity '>' (by decide) d h
    · simp at hself

/-- Escaped text holds no quote and no angle bracket. -/
theorem not_mem_escapeChars {d : Char} (hd : d = '"' ∨ d = '\'' ∨ d = '<' ∨ d = '>')
    (cs : List Char) : d ∉ escapeChars cs := by
  intro h
  obtain ⟨c, -, hc⟩ := List.mem_flatMap.mp h
  rcases mem_escapeChar hc with hent | ⟨rfl, hself⟩
  · rcases hd with rfl | rfl | rfl | rfl <;> exact absurd hent (by decide)
  · rcases hd with rfl | rfl | rfl | rfl <;> exact absurd hself (by decide)

/-- Spaces are neither made nor lost. -/
theorem space_mem_escapeChars {cs : List Char} : ' ' ∈ escapeChars cs ↔ ' ' ∈ cs := by
  constructor
  · intro h
    obtain ⟨c, hmem, hc⟩ := List.mem_flatMap.mp h
    rcases mem_escapeChar hc with hent | ⟨rfl, -⟩
    · exact absurd hent (by decide)
    · exact hmem
  · intro h
    exact List.mem_flatMap.mpr ⟨' ', h, by decide⟩

theorem escapeChars_eq_nil {cs : List Char} : escapeChars cs = [] ↔ cs = [] := by
  constructor
  · intro h
    rw [← unescapeChars_escapeChars cs, h]
    rfl
  · intro h
    rw [h]
    rfl

end TagTemplate.Html
