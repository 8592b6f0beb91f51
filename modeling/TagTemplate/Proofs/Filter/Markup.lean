import TagTemplate.Filter
import TagTemplate.Proofs.Text.CaseMarkup
import TagTemplate.Proofs.Value.EverySafe

/-!
# The built-in filters make no markup

Of the built-in filters only `safe` turns text into markup that the value did not have before.
`escape` makes safe text, but of escaped text; `upper`, `lower` and `first` keep safe text safe, but
add no markup to it; `join` gives plain text; `default` gives one of the values it got.

> `clean_of_builtin`: every built-in filter but `safe` keeps a value whose safe text is clean a
> value whose safe text is clean.
-/

namespace TagTemplate.Filter

open Value (everySafe_list)

variable {v w : Value} {args : List Value}

theorem clean_mapText {f : List Char → List Char}
    (hf : ∀ cs, (∀ c ∈ cs, Html.isMarkup c = false) → ∀ d ∈ f cs, Html.isMarkup d = false)
    (hv : v.EverySafe SafeText.Clean) : (mapText f v).EverySafe SafeText.Clean := by
  cases v with
  | safe s => exact Html.clean_ofList.mpr (hf _ (Html.clean_iff.mp hv))
  | _ => trivial

theorem clean_escape (hv : v.EverySafe SafeText.Clean) (h : escape v args .html = .ok w) :
    w.EverySafe SafeText.Clean := by
  unfold escape at h
  split at h
  next =>
    cases h
    exact hv
  next =>
    cases h
    exact Html.clean_escape _

theorem clean_first (hv : v.EverySafe SafeText.Clean) (h : first v args .html = .ok w) :
    w.EverySafe SafeText.Clean := by
  have htake : ∀ cs : List Char, (∀ c ∈ cs, Html.isMarkup c = false) →
      ∀ d ∈ cs.take 1, Html.isMarkup d = false :=
    fun cs hcs d hd => hcs d (List.mem_of_mem_take hd)
  unfold first at h
  split at h
  next items =>
    cases h
    cases items with
    | nil => trivial
    | cons item rest => exact everySafe_list.mp hv item (List.mem_cons_self ..)
  next =>
    cases h
    exact clean_mapText htake hv
  next =>
    cases h
    exact clean_mapText htake hv
  next =>
    cases h
    exact hv

theorem clean_join (h : join v args .html = .ok w) : w.EverySafe SafeText.Clean := by
  unfold join at h
  dsimp only at h
  split at h <;> cases h <;> trivial

theorem clean_fallback (hv : v.EverySafe SafeText.Clean)
    (hargs : ∀ a ∈ args, a.EverySafe SafeText.Clean) (h : fallback v args .html = .ok w) :
    w.EverySafe SafeText.Clean := by
  unfold fallback at h
  split at h
  next => cases h
  next a more =>
    cases h
    have hpick : ∀ replaces : Bool, (if replaces then a else v).EverySafe SafeText.Clean := by
      intro replaces
      cases replaces with
      | false => exact hv
      | true => exact hargs a (List.mem_cons_self ..)
    exact hpick _

/-- Every built-in filter but `safe` keeps the safe text of a value clean. -/
theorem clean_of_builtin {name : String} {filter : Filter}
    (hfilter : Entries.get? name builtin = some filter) (hname : name ≠ "safe")
    (hv : v.EverySafe SafeText.Clean) (hargs : ∀ a ∈ args, a.EverySafe SafeText.Clean)
    (h : filter v args .html = .ok w) : w.EverySafe SafeText.Clean := by
  have hmem := Entries.mem_of_get? hfilter
  simp only [builtin, List.mem_cons, Prod.mk.injEq, List.not_mem_nil, or_false] at hmem
  -- in the order of the table, `safe` first
  rcases hmem with ⟨rfl, -⟩ | ⟨-, rfl⟩ | ⟨-, rfl⟩ | ⟨-, rfl⟩ | ⟨-, rfl⟩ | ⟨-, rfl⟩ | ⟨-, rfl⟩ |
    ⟨-, rfl⟩
  · exact absurd rfl hname
  · exact clean_escape hv h
  · exact clean_escape hv h
  · cases h
    exact clean_mapText (fun _ => Text.clean_upper) hv
  · cases h
    exact clean_mapText (fun _ => Text.clean_lower) hv
  · exact clean_first hv h
  · exact clean_join h
  · exact clean_fallback hv hargs h

end TagTemplate.Filter
