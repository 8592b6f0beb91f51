import TagTemplate.Proofs.Attribute.Markup
import TagTemplate.Proofs.Tag.Usual

/-!
# The markup of an element

The usual tag writes its element around its body: an opening and a closing pair of angle brackets,
whatever the name of the element and whatever the attributes say. The name is checked when the tag
is defined (`clean_of_isElementName`), and attributes are clean if their values are.

> `markupOf_invoke`: the markup of such an invocation is that of its body between two pairs of
> angle brackets.
-/

namespace TagTemplate

theorem isMarkup_of_isAlphanum {c : Char} (h : c.isAlphanum = true) : Html.isMarkup c = false := by
  rw [Bool.eq_false_iff]
  intro hmarkup
  simp only [Html.isMarkup, Bool.or_eq_true, beq_iff_eq] at hmarkup
  rcases hmarkup with (rfl | rfl) | rfl <;> exact absurd h (by decide)

/-- The name of an element is clean. -/
theorem clean_of_isElementName {name : String} (h : isElementName name = true) :
    Html.Clean name := by
  rw [Html.clean_iff]
  unfold isElementName at h
  split at h
  next => cases h
  next c cs hname =>
    rw [Bool.and_eq_true, Bool.or_eq_true, beq_iff_eq, List.all_eq_true] at h
    obtain ⟨hfirst, hinner⟩ := h
    rw [hname]
    refine List.forall_mem_cons.mpr ⟨?_, fun d hd => ?_⟩
    · rcases hfirst with hletter | rfl
      · exact isMarkup_of_isAlphanum (by rw [Char.isAlphanum, hletter, Bool.true_or])
      · decide
    · have hchar := hinner d hd
      rw [Bool.or_eq_true, Bool.or_eq_true, beq_iff_eq, beq_iff_eq] at hchar
      rcases hchar with (halnum | rfl) | rfl
      · exact isMarkup_of_isAlphanum halnum
      · decide
      · decide

/-- An element has two pairs of angle brackets around the markup of its content. -/
theorem markupOf_elementText {element attributes : String} (helement : Html.Clean element)
    (hattributes : Html.Clean attributes) (content : String) :
    Html.markupOf (elementText element attributes content) =
      ['<', '>'] ++ Html.markupOf content ++ ['<', '>'] := by
  have hopen : Html.markupOf (if attributes.isEmpty then "" else " " ++ attributes) = [] := by
    split
    · rfl
    · exact Html.clean_space.append hattributes
  have hclose : Html.markupOf "</" = ['<'] := by decide
  have hless : Html.markupOf "<" = ['<'] := by decide
  have hgreater : Html.markupOf ">" = ['>'] := by decide
  unfold elementText
  simp only [Html.markupOf_append, hopen, hclose, hless, hgreater]
  rw [show Html.markupOf element = [] from helement]
  simp

/-- An invocation of a tag that writes its element has rendered its body, and adds two pairs of
angle brackets to it. -/
theorem Tag.markupOf_invoke {d : TagDefinition} {locals : Value} {values : List Value}
    {body : Body} {markup : SafeText} (hvalues : ∀ v ∈ values, v.EverySafe SafeText.Clean)
    (h : (Tag.ofDefinition d none).invoke ⟨.html, locals⟩ values body = .ok markup) :
    ∃ content, body.resolve = .ok content ∧
      Html.markupOf markup.text = ['<', '>'] ++ Html.markupOf content ++ ['<', '>'] := by
  rw [Tag.invoke_of_isUsual (Tag.isUsual_ofDefinition d none)] at h
  obtain ⟨items, hitems, h⟩ := bind_eq_ok h
  obtain ⟨content, hcontent, h⟩ := bind_eq_ok h
  cases h
  refine ⟨content, hcontent, ?_⟩
  exact markupOf_elementText (clean_of_isElementName d.element.valid)
    (Attribute.clean_write_ofValues hvalues (mapError_eq_ok hitems)) content

end TagTemplate
