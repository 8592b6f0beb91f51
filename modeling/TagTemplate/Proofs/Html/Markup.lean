import TagTemplate.Html.Escaper
import TagTemplate.Proofs.Html.Unescape

/-!
# The markup of a text

A text makes markup out of its surroundings through its angle brackets and apostrophes. Double
quotes are not counted: attributes are written with them. `markupOf` keeps those characters of a
text, in order, and a text is `Clean` if there are none. Escaped text is clean, whatever it says.
-/

namespace TagTemplate.Html

/-- The characters that markup is made of, apart from the quotes around attribute values. -/
def isMarkup (c : Char) : Bool :=
  c == '<' || c == '>' || c == '\''

/-- The characters of a text that markup is made of, in order. -/
def markupOf (text : String) : List Char :=
  text.toList.filter isMarkup

/-- The text holds no angle bracket and no apostrophe. -/
def Clean (text : String) : Prop :=
  markupOf text = []

instance (text : String) : Decidable (Clean text) :=
  inferInstanceAs (Decidable (markupOf text = []))

theorem clean_space : Clean " " := by
  decide

theorem clean_iff {text : String} : Clean text ↔ ∀ c ∈ text.toList, isMarkup c = false := by
  rw [Clean, markupOf, List.filter_eq_nil_iff]
  simp only [Bool.not_eq_true]

theorem clean_ofList {cs : List Char} :
    Clean (String.ofList cs) ↔ ∀ c ∈ cs, isMarkup c = false := by
  rw [clean_iff, String.toList_ofList]

@[simp] theorem markupOf_append (s t : String) : markupOf (s ++ t) = markupOf s ++ markupOf t := by
  rw [markupOf, String.toList_append, List.filter_append]
  rfl

theorem Clean.append {s t : String} (hs : Clean s) (ht : Clean t) : Clean (s ++ t) := by
  rw [Clean, markupOf_append, hs, ht, List.append_nil]

theorem clean_intercalate {separator : String} (hsep : Clean separator) :
    ∀ {l : List String}, (∀ s ∈ l, Clean s) → Clean (separator.intercalate l)
  | [], _ => rfl
  | [s], h => by
    rw [String.intercalate_singleton]
    exact h s (List.mem_singleton_self s)
  | s :: t :: rest, h => by
    obtain ⟨hs, hrest⟩ := List.forall_mem_cons.mp h
    rw [String.intercalate_cons_cons]
    exact (hs.append hsep).append (clean_intercalate hsep hrest)

/-- Escaped text is clean. -/
theorem clean_escape (text : String) : Clean (escape text) := by
  rw [clean_iff, toList_escape]
  intro c hc
  rw [Bool.eq_false_iff]
  intro hmarkup
  simp only [isMarkup, Bool.or_eq_true, beq_iff_eq] at hmarkup
  rcases hmarkup with (rfl | rfl) | rfl
  · exact not_mem_escapeChars (by decide) _ hc
  · exact not_mem_escapeChars (by decide) _ hc
  · exact not_mem_escapeChars (by decide) _ hc

end TagTemplate.Html

/-- Safe text that makes no markup. -/
def TagTemplate.SafeText.Clean (s : SafeText) : Prop :=
  Html.Clean s.text
