import TagTemplate.Proofs.Html.Markup
import TagTemplate.Text.Case

/-!
# Changing case makes no markup

Upper- and lower-case mappings never produce an angle bracket or an apostrophe from another
character. For the characters that a table lists this is a check of the table (`makesMarkup`); all
others map to themselves. A clean text therefore stays clean in either case (`clean_upper`,
`clean_lower`).
-/

namespace TagTemplate.Text

/-- The code points of the markup characters. -/
def markupCodes : List Nat :=
  [0x3C, 0x3E, 0x27]

/-- Does a run map one of its code points to a markup character? -/
def CaseRun.makesMarkup (r : CaseRun) : Bool :=
  markupCodes.any fun code => (r.first : Int) + r.shift ≤ code && code ≤ (r.last : Int) + r.shift

/-- Does a case table map any of its characters to a markup character? -/
def makesMarkup (expansions : List (Nat × List Nat)) (runs : List CaseRun) : Bool :=
  expansions.any (fun (_, codes) => codes.any (markupCodes.contains ·))
    || runs.any CaseRun.makesMarkup

theorem upper_makesMarkup : makesMarkup upperExpansions upperRuns = false := by
  decide +kernel

theorem lower_makesMarkup : makesMarkup lowerExpansions lowerRuns = false := by
  decide +kernel

/-- A code point that stands for a markup character is that character's own. -/
theorem mem_markupCodes {n : Nat} (h : Html.isMarkup (Char.ofNat n) = true) : n ∈ markupCodes := by
  by_cases hvalid : n.isValidChar
  · have hcode : (Char.ofNat n).toNat = n := by
      rw [Char.ofNat, dif_pos hvalid]
      rfl
    simp only [Html.isMarkup, Bool.or_eq_true, beq_iff_eq] at h
    rw [← hcode]
    rcases h with (h | h) | h <;> rw [h] <;> decide
  · rw [Char.ofNat, dif_neg hvalid] at h
    exact absurd h (by decide)

/-- A code point that a run maps to that of a markup character is found by the check of the run. -/
theorem CaseRun.makesMarkup_of_holds {r : CaseRun} {n : Nat} (hholds : r.holds n = true)
    (hcode : (n + r.shift).toNat ∈ markupCodes) : r.makesMarkup = true := by
  simp only [holds, Bool.and_eq_true, decide_eq_true_eq] at hholds
  refine List.any_eq_true.mpr ⟨_, hcode, ?_⟩
  -- no code of a markup character is zero, so the sum was not cut off
  have hpos : 0 < (n + r.shift).toNat := by
    have hall : ∀ code ∈ markupCodes, 0 < code := by decide
    exact hall _ hcode
  rw [Bool.and_eq_true, decide_eq_true_eq, decide_eq_true_eq]
  omega

/-- By a table that makes no markup, markup characters come from nothing but themselves. -/
theorem isMarkup_of_mem_mapChar {expansions : List (Nat × List Nat)} {runs : List CaseRun}
    (htable : makesMarkup expansions runs = false) {c d : Char}
    (hd : d ∈ mapChar expansions runs c) (hmarkup : Html.isMarkup d = true) : d = c := by
  rw [makesMarkup, Bool.or_eq_false_iff, List.any_eq_false, List.any_eq_false] at htable
  unfold mapChar at hd
  split at hd
  next codes hcodes =>
    obtain ⟨code, hcode, rfl⟩ := List.mem_map.mp hd
    obtain ⟨before, after, hsplit, -⟩ := List.lookup_eq_some_iff.mp hcodes
    have hmem : (c.toNat, codes) ∈ expansions := by
      rw [hsplit]
      exact List.mem_append_right _ (List.mem_cons_self ..)
    have hentry := htable.1 _ hmem
    refine absurd (List.any_eq_true.mpr ⟨code, hcode, ?_⟩) hentry
    rw [List.contains_iff_mem]
    exact mem_markupCodes hmarkup
  next =>
    split at hd
    next r hr =>
      cases List.mem_singleton.mp hd
      have hholds : r.holds c.toNat = true := by
        simpa using List.find?_some hr
      refine absurd ?_ (htable.2 r (List.mem_of_find?_eq_some hr))
      exact CaseRun.makesMarkup_of_holds hholds (mem_markupCodes hmarkup)
    next => exact List.mem_singleton.mp hd

/-- Upper case makes no markup. -/
theorem clean_upper {cs : List Char} (h : ∀ c ∈ cs, Html.isMarkup c = false) :
    ∀ d ∈ upper cs, Html.isMarkup d = false := by
  intro d hd
  obtain ⟨c, hc, hdc⟩ := List.mem_flatMap.mp hd
  by_cases hmarkup : Html.isMarkup d = true
  · rw [isMarkup_of_mem_mapChar upper_makesMarkup hdc hmarkup]
    exact h c hc
  · exact Bool.eq_false_iff.mpr hmarkup

theorem clean_lowerAfter :
    ∀ (before : List Char) {cs : List Char}, (∀ c ∈ cs, Html.isMarkup c = false) →
      ∀ d ∈ lowerAfter before cs, Html.isMarkup d = false
  | _, [], _, d, hd => absurd hd List.not_mem_nil
  | before, c :: rest, h, d, hd => by
    obtain ⟨hc, hrest⟩ := List.forall_mem_cons.mp h
    rw [lowerAfter] at hd
    rcases List.mem_append.mp hd with hd | hd
    · split at hd
      · -- both forms of the sigma are letters
        rw [List.mem_singleton] at hd
        rw [hd]
        split <;> decide
      · by_cases hmarkup : Html.isMarkup d = true
        · rw [isMarkup_of_mem_mapChar lower_makesMarkup hd hmarkup]
          exact hc
        · exact Bool.eq_false_iff.mpr hmarkup
    · exact clean_lowerAfter (c :: before) hrest d hd

/-- Lower case makes no markup. -/
theorem clean_lower {cs : List Char} (h : ∀ c ∈ cs, Html.isMarkup c = false) :
    ∀ d ∈ lower cs, Html.isMarkup d = false :=
  clean_lowerAfter [] h

end TagTemplate.Text
