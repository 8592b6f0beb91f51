import TagTemplate.Proofs.Expression.Leaf
import TagTemplate.Proofs.Expression.Placed
import TagTemplate.Proofs.Expression.Portable

/-!
# Arguments in other lists

What stands in an argument list at the span of an argument can be put into another list. It is a text
in which the argument was found (`HasSource.exists_found`), so it is read as that argument in front of
everything that ends it there (`portable_argument`). A comma ends every argument. A gap does too: what
begins an argument is no bar, plus or equals sign, and it is no opening parenthesis where arguments
for a filter could be missing, which has to be asked for.

> `Argument.readList_joined`: sources of arguments with commas or with blanks between them are read as
> these arguments, up to places, as each of them is on its own.
-/

namespace TagTemplate

open Reader Grammar
open Lexeme (EndsInFilter MayHaveComma Follows)

namespace Argument

variable {a : Argument} {text : String}

/-- The text is what stands at the span of the argument in a list that it was read in. -/
def HasSource (a : Argument) (text : String) : Prop :=
  ∃ source args, readList source = .ok args ∧ a ∈ args ∧
    text = String.ofList (a.span.textIn source.toList)

theorem HasSource.exists_found (h : a.HasSource text) :
    ∃ m, Found (argument (expressionAt m)) text.toList a ∧ Lexeme.Begins text.toList := by
  obtain ⟨source, args, hread, ha, rfl⟩ := h
  obtain ⟨_, hread⟩ := readAll_eq_ok_iff.mp (readList_eq_ok_iff.mp hread).1
  obtain ⟨_, _, hrun, -, -, -⟩ := signature_eq_some hread
  obtain ⟨before, after, rfl⟩ := List.append_of_mem ha
  obtain ⟨c, hbefore, hrun⟩ := hrun.split
  cases hrun with
  | @cons _ c₁ c₂ _ lead _ _ _ hlead hitem _ =>
    obtain ⟨front, hfront⟩ := hbefore.takes (takes_argument (takes_expressionAt _))
    obtain ⟨taken, hmoves, hbegins, -⟩ := argument_edges (takes_expressionAt _) hitem
    have htext : a.span.textIn source.toList = trimGap taken := by
      rw [argument_span (takes_expressionAt _) hitem hmoves]
      exact textIn_trimGap ⟨front ++ lead, hfront.trans hlead⟩ hmoves
    rw [String.toList_ofList, htext]
    exact ⟨_, ⟨c₁, c₂, taken, hitem, hmoves, rfl⟩, begins_trimGap hbegins⟩

/-- A source of an argument begins in no gap and with nothing that goes on with another argument. -/
theorem HasSource.begins (h : a.HasSource text) :
    ∃ c r, text.toList = c :: r ∧ Lexeme.isGap c = false ∧ c ∉ [',', '|', '+', '='] := by
  obtain ⟨_, -, c, r, htext, hblank, hmem⟩ := h.exists_found
  exact ⟨c, r, htext, isGap_of_isBlank hblank, hmem⟩

theorem HasSource.named (h : a.HasSource text) : ∀ key ∈ a.key, ¬ key.text.isEmpty = true := by
  obtain ⟨source, args, hread, ha, -⟩ := h
  have hnamed := List.any_eq_false.mp (readList_eq_ok_iff.mp hread).2 a ha
  intro key hkey hempty
  exact hnamed ((Option.any_eq_true ..).mpr ⟨key, hkey, hempty⟩)

/-- A source of an argument is read as that argument wherever it is ended. -/
theorem HasSource.reads (h : a.HasSource text) {n : Nat} {rest : List Char}
    (hn : text.toList.length ≤ n) (hrest : Follows ['|', '+', '='] text.toList rest) :
    Reads (argument (expressionAt n)) (text.toList ++ rest) fun a' r =>
      a'.placeless = a.placeless ∧ afterGap r = afterGap rest := by
  obtain ⟨_, hfound, -⟩ := h.exists_found
  exact portable_argument (portable_expressionAt (Nat.le_refl n)) _ a hfound (Nat.lt_succ_of_le hn)
    rest hrest

variable {items : List (String × Argument)}

/-- Sources of arguments with a gap, a comma or both between any two of them are read as these
arguments, if no parenthesis is taken for arguments of the filter in front of it. -/
theorem readList_sources {separator : String} (hseparator : MayHaveComma separator.toList)
    (hne : separator.toList ≠ []) (h : ∀ x ∈ items, x.2.HasSource x.1)
    (hfilter : (items.map Prod.fst).IsChain fun s t =>
      EndsInFilter s.toList → t.toList.head? ≠ some '(') :
    ∃ args, readList (separator.intercalate (items.map Prod.fst)) = .ok args ∧
      args.map Argument.placeless = (items.map Prod.snd).map Argument.placeless := by
  have hfollows : items.IsChain fun x y => ∀ rest,
      Follows ['|', '+', '='] x.1.toList (separator.toList ++ y.1.toList ++ rest) := by
    refine List.IsChain.imp_of_mem_imp (fun x y _ hy hxy rest => ?_)
      ((List.isChain_map Prod.fst).mp hfilter)
    obtain ⟨c, r, htext, hgap, hc⟩ := (h y hy).begins
    rw [htext] at hxy ⊢
    rw [List.append_assoc]
    exact Lexeme.follows_separator hseparator hne (by decide) hgap
      (fun hends heq => hxy hends (congrArg some heq)) fun hmem => hc (List.mem_cons_of_mem _ hmem)
  refine readList_separated hseparator hne (fun x hx => ?_) hfollows
    (fun _ _ => Lexeme.follows_gap Lexeme.gap_nil _ _)
    (fun x hx n rest hn hrest => (h x hx).reads hn hrest) fun x hx => (h x hx).named
  obtain ⟨c, r, htext, hgap, hc⟩ := (h x hx).begins
  exact ⟨c, r, htext, hgap, fun heq => hc (by simp [heq])⟩

/-- Commas between arguments are optional. Sources of arguments are read as these arguments on their
own, and with commas or with blanks between them all together, if no source that ends in a filter
without arguments has one that begins with a parenthesis behind it. -/
theorem readList_joined (h : ∀ x ∈ items, x.2.HasSource x.1)
    (hfilter : (items.map Prod.fst).IsChain fun s t =>
      EndsInFilter s.toList → t.toList.head? ≠ some '(') :
    (∀ x ∈ items, ∃ a, readList x.1 = .ok [a] ∧ a.placeless = x.2.placeless) ∧
      ∀ separator ∈ [",", " "], ∃ args,
        readList (separator.intercalate (items.map Prod.fst)) = .ok args ∧
          args.map Argument.placeless = items.map fun x => x.2.placeless := by
  have hcomma : MayHaveComma ",".toList :=
    Or.inr ⟨[], [], Lexeme.gap_nil, Lexeme.gap_nil, rfl⟩
  have hblank : MayHaveComma " ".toList := Or.inl Lexeme.isGap_of_mem_blank
  constructor
  · intro x hx
    obtain ⟨args, hread, hargs⟩ := readList_sources hcomma (List.cons_ne_nil _ _)
      (List.forall_mem_singleton.mpr (h x hx)) (List.isChain_singleton _)
    rw [List.map_singleton, String.intercalate_singleton] at hread
    obtain ⟨a, rfl, ha⟩ := List.map_eq_singleton_iff.mp hargs
    exact ⟨a, hread, ha⟩
  · intro separator hmem
    have hseparator : MayHaveComma separator.toList ∧ separator.toList ≠ [] := by
      obtain rfl | hmem := List.mem_cons.mp hmem
      · exact ⟨hcomma, List.cons_ne_nil _ _⟩
      · obtain rfl := List.mem_singleton.mp hmem
        exact ⟨hblank, List.cons_ne_nil _ _⟩
    obtain ⟨args, hread, hargs⟩ := readList_sources hseparator.1 hseparator.2 h hfilter
    rw [List.map_map] at hargs
    exact ⟨args, hread, hargs⟩

/-- A group with a filter, a value under a key with a dash, and a number below zero, from one list. -/
theorem readList_joined_three :
    ∃ a b c, readList "(x + y)|f , data-k='v' -1.5" = .ok [a, b, c] ∧
      (∀ x ∈ [("(x + y)|f", a), ("-1.5", c), ("data-k='v'", b)],
        ∃ a', readList x.1 = .ok [a'] ∧ a'.placeless = x.2.placeless) ∧
      ∀ separator ∈ [",", " "], ∃ args,
        readList (separator.intercalate ["(x + y)|f", "-1.5", "data-k='v'"]) = .ok args ∧
          args.map Argument.placeless = [a.placeless, c.placeless, b.placeless] := by
  obtain ⟨a, b, c, hread, ha, hb, hc⟩ : ∃ a b c,
      readList "(x + y)|f , data-k='v' -1.5" = .ok [a, b, c] ∧
        "(x + y)|f" = String.ofList (a.span.textIn "(x + y)|f , data-k='v' -1.5".toList) ∧
        "data-k='v'" = String.ofList (b.span.textIn "(x + y)|f , data-k='v' -1.5".toList) ∧
        "-1.5" = String.ofList (c.span.textIn "(x + y)|f , data-k='v' -1.5".toList) :=
    ⟨_, _, _, rfl, rfl, rfl, rfl⟩
  have hsources : ∀ x ∈ [("(x + y)|f", a), ("-1.5", c), ("data-k='v'", b)], x.2.HasSource x.1 := by
    intro x hx
    simp only [List.mem_cons, List.not_mem_nil, or_false] at hx
    rcases hx with rfl | rfl | rfl
    · exact ⟨_, _, hread, by simp, ha⟩
    · exact ⟨_, _, hread, by simp, hc⟩
    · exact ⟨_, _, hread, by simp, hb⟩
  have hfilter : ["(x + y)|f", "-1.5", "data-k='v'"].IsChain fun s t =>
      EndsInFilter s.toList → t.toList.head? ≠ some '(' := by
    refine List.isChain_cons_cons.mpr ⟨fun _ => by decide, ?_⟩
    exact List.isChain_cons_cons.mpr ⟨fun _ => by decide, List.isChain_singleton _⟩
  exact ⟨a, b, c, hread, readList_joined hsources hfilter⟩

end Argument

end TagTemplate
