import TagTemplate.Proofs.Expression.Placed

/-!
# Where filters stand

A filter is written with a bar and a name, and perhaps with arguments in parentheses. Its span goes from
the bar to the end of this text, and over the gap behind it if the parentheses are left out: by then the
rule has looked for them behind the gap (`FilterCall.Covers`). So the spans of the filters of a value lie
one behind the other, behind the token, and their texts lie in the span of the value. But the span of a
value stops in front of the gap at its end, and the last filter may stick out by this gap.

> `Expr.filters_follow_of_read`: so it is in what is read of a text, at any depth.
> `Expr.read_blankBehindFilter`: a blank behind a filter belongs to its span, and not to that of the
> value.
-/

namespace TagTemplate

open Reader Grammar
open Lexeme (Gap Begins Ends)

/-- The filter is written as `text`, from the bar to the name or to the end of its arguments. The
`blanks` behind it go with a filter that ends with its name, and with no other. -/
structure FilterCall.IsWritten (f : FilterCall Expr) (text blanks : List Char) : Prop where
  bar : ∃ r, text = '|' :: r
  last : ∃ init last, text = init ++ [last] ∧ Text.isBlank last = false
  gap : Gap blanks
  bare : blanks = [] ∨ f.args = [] ∧
    ∃ front, Gap front ∧ text = '|' :: (front ++ f.name.text.toList)

/-- The span of the filter is that of its text and of the blanks that go with it. -/
structure FilterCall.Covers (source : List Char) (f : FilterCall Expr) (text blanks : List Char) :
    Prop extends f.IsWritten text blanks where
  span : ∃ front back, source = front ++ ((text ++ blanks) ++ back) ∧
    f.span = .over (Position.start.after front) (text ++ blanks)

/-- The filters of a value lie one behind the other, behind its token. The text of each lies in the span
of the value, and so does its whole span unless the value ends with this text. -/
structure Expr.FiltersFollow (source : List Char) (e : Expr) : Prop where
  ordered : (e.token.span :: e.filters.map FilterCall.span).Pairwise Span.Before
  within : ∀ f ∈ e.filters, ∃ text blanks, f.Covers source text blanks ∧
    (Span.over f.span.start text).Within e.span ∧
      (f.span.Within e.span ∨ e.span.stop = (Span.over f.span.start text).stop)
  /-- Only the last can stick out of the value. -/
  others : ∀ f ∈ e.filters.dropLast, f.span.Within e.span

/-! ## One filter -/

namespace FilterCall.Covers

variable {source text blanks : List Char} {f : FilterCall Expr} {s : Span}

/-- The text of a filter ends where its span does, or in front of the gap at its end. -/
theorem stop_le (h : f.Covers source text blanks) :
    (Span.over f.span.start text).stop ≤ f.span.stop := by
  obtain ⟨front, back, -, hspan⟩ := h.span
  rw [hspan]
  show (Position.start.after front).offset + byteSize text ≤
    (Position.start.after front).offset + byteSize (text ++ blanks)
  rw [byteSize_append]
  omega

theorem fits (h : f.Covers source text blanks) : (Span.over f.span.start text).Fits source := by
  obtain ⟨front, back, hsource, hspan⟩ := h.span
  obtain ⟨r, hbar⟩ := h.bar
  have hc : (Cursor.mk (text ++ (blanks ++ back)) (Position.start.after front)).StandsIn source := by
    rw [List.append_assoc] at hsource
    exact ⟨front, hsource, rfl⟩
  rw [hspan]
  exact fits_over hc rfl ⟨'|', r, hbar, rfl⟩ h.last

/-- What ends with the span of a filter, and not with white space, ends with its text. -/
theorem stop_le_of_fits (h : f.Covers source text blanks) (hs : s.Fits source)
    (hstop : s.stop ≤ f.span.stop) : s.stop ≤ (Span.over f.span.start text).stop := by
  obtain ⟨front, back, hsource, hspan⟩ := h.span
  obtain ⟨init, last, hlast, hblank⟩ := h.last
  have hc : (Cursor.mk ((text ++ blanks) ++ back) (Position.start.after front)).StandsIn source :=
    ⟨front, hsource, rfl⟩
  have hmoves : (Cursor.mk ((text ++ blanks) ++ back) (Position.start.after front)).Moves
      (text ++ blanks) ⟨back, (Position.start.after front).after (text ++ blanks)⟩ :=
    ⟨rfl, rfl⟩
  have htrim : trimGap (text ++ blanks) = text := by
    rw [trimGap_append h.gap, hlast, trimGap_concat (isGap_of_isBlank hblank)]
  rw [hspan] at hstop ⊢
  have hend := hs.stop_le_trimGap hc hmoves (by rw [hmoves.offset_eq]; exact hstop)
  rw [htrim] at hend
  exact hend

end FilterCall.Covers

namespace Grammar

variable {inner : Reader Expr} {source : List Char} {c d : Cursor} {f : FilterCall Expr}

/-- The span of a filter is that of all that was read, blanks included. -/
theorem filter_span {taken : List Char} (h : (filter inner).read? c = some (f, d))
    (hmoves : c.Moves taken d) : f.span = .over c.position taken := by
  unfold filter at h
  rw [read?_named] at h
  obtain ⟨⟨token, args⟩, c₁, source, -, hsource, h⟩ := located_bind_eq_some h
  cases h
  rw [hsource taken hmoves]

/-- The text of a filter ends with its name, and a gap goes with it, or with a parenthesis. -/
theorem exists_text_of_filter (htakes : Takes inner) (h : Filter inner c f d) :
    ∃ text blanks, c.Moves (text ++ blanks) d ∧ f.IsWritten text blanks := by
  cases h with
  | @bare _ _ _ front name back token _ hfront hbar hsplit hname htoken hback hmoves =>
    obtain ⟨⟨a, r, hcons, -⟩, hsolid, -⟩ := Lexeme.name?_eq_some hsplit
    obtain ⟨init, last, hlast, hblank⟩ :=
      hsolid.exists_concat (by rw [hcons]; exact List.cons_ne_nil a r)
    have hall : c.Moves (('|' :: (front ++ name)) ++ back) d := by
      simpa only [List.append_assoc, List.cons_append] using hbar.trans (hname.trans hmoves)
    refine ⟨'|' :: (front ++ name), back, hall, ⟨_, rfl⟩, ⟨'|' :: (front ++ init), last, ?_, hblank⟩,
      hback, Or.inr ⟨rfl, front, hfront, ?_⟩⟩
    · rw [hlast, List.cons_append, List.append_assoc]
    · show _ = '|' :: (front ++ token.text.toList)
      rw [htoken, String.toList_ofList]
  | @args _ _ _ _ front name back token args _ _ hbar _ hname _ _ hmoves hargs =>
    obtain ⟨middle, hargs⟩ := hargs.exists_moves htakes
    have hall : c.Moves
        ((('|' :: (front ++ (name ++ (back ++ '(' :: middle)))) ++ [')']) ++ []) d := by
      simpa only [List.append_assoc, List.cons_append, List.append_nil] using
        hbar.trans (hname.trans (hmoves.trans hargs))
    exact ⟨_, [], hall, ⟨_, rfl⟩, ⟨_, ')', rfl, rfl⟩, Lexeme.gap_nil, Or.inl rfl⟩

/-- Filters lie where they were read, and their spans are those of their texts and of gaps. -/
theorem places_filter (htakes : Takes inner) : Places source (filter inner) (fun f => [f.span])
    fun f => ∃ text blanks, f.Covers source text blanks := by
  intro c f d hc h
  obtain ⟨text, blanks, hmoves, hwritten⟩ := exists_text_of_filter htakes (filter_eq_some h)
  have hspan := filter_span h hmoves
  obtain ⟨front, hfront⟩ := hc
  refine ⟨⟨text, blanks, hwritten, front, d.rest, ?_, ?_⟩, ?_⟩
  · have hsource : source = front ++ c.rest := hfront.rest
    rw [hsource, hmoves.rest]
  · rw [hspan, hfront.position]
  · show Span.InOrder _ [f.span] _
    rw [hspan]
    exact ⟨Nat.le_refl _, Nat.le_add_right .., Nat.le_of_eq hmoves.offset_eq.symm⟩

end Grammar

/-! ## The filters of a value -/

/-- It is enough that the texts of the filters lie in the span of the value. -/
theorem Expr.FiltersFollow.of_within {source : List Char} {e : Expr} (hfits : e.span.Fits source)
    (hordered : (e.token.span :: e.filters.map FilterCall.span).Pairwise Span.Before)
    (hwithin : ∀ f ∈ e.filters, ∃ text blanks, f.Covers source text blanks ∧
      (Span.over f.span.start text).Within e.span) : e.FiltersFollow source := by
  refine ⟨hordered, fun f hf => ?_, fun f hf => ?_⟩
  · obtain ⟨text, blanks, hcovers, hstart, hstop⟩ := hwithin f hf
    refine ⟨text, blanks, hcovers, ⟨hstart, hstop⟩, ?_⟩
    by_cases hout : f.span.stop ≤ e.span.stop
    · exact Or.inl ⟨hstart, hout⟩
    · have hend := hcovers.stop_le_of_fits hfits (by omega)
      exact Or.inr (Nat.le_antisymm hend hstop)
  · -- the last filter begins behind this one, and its text lies in the value
    obtain ⟨_, _, -, hstart, -⟩ := hwithin f (List.dropLast_subset _ hf)
    refine ⟨hstart, ?_⟩
    have hne : e.filters ≠ [] := List.ne_nil_of_mem (List.dropLast_subset _ hf)
    obtain ⟨text, blanks, hcovers, -, hstop⟩ := hwithin _ (List.getLast_mem hne)
    have hlast := hcovers.fits.start_le_stop
    have hpairs := (List.pairwise_cons.mp hordered).2
    rw [← List.dropLast_append_getLast hne, List.map_append] at hpairs
    have hbefore : f.span.stop ≤ (e.filters.getLast hne).span.start.offset :=
      (List.pairwise_append.mp hpairs).2.2 _ (List.mem_map_of_mem hf) _ (List.mem_singleton_self _)
    exact Nat.le_trans hbefore (Nat.le_trans hlast hstop)

/-- There is nothing to say of a value without filters. -/
theorem Expr.filtersFollow_plain {source : List Char} {token : Token} {kind : Expr.Kind}
    {children : List Expr} : (Expr.plain token kind children).FiltersFollow source where
  ordered := List.pairwise_singleton ..
  within := fun _ hf => absurd hf List.not_mem_nil
  others := fun _ hf => absurd hf List.not_mem_nil

namespace Grammar

/-- The rules of the language put filters where they belong. -/
theorem arranges_filters {source : List Char} :
    Arranges source (fun x => x.token.span :: x.filters.map FilterCall.span)
      (Expr.FiltersFollow source) where
  plain kind children _ hmoves _ _ _ _ := ⟨Expr.filtersFollow_plain, inOrder_trimGap hmoves⟩
  text means _ hmoves _ _ :=
    ⟨Expr.filtersFollow_plain, Nat.le_refl _, Nat.le_add_right .., Nat.le_of_eq hmoves.offset_eq.symm⟩
  filters := by
    intro inner c c₁ c₂ d taken x fs htakes hc hx hspans hc₁ hrun _ _ hend hmoves hbegins hends
    obtain ⟨hfs, hordered⟩ := hrun.places (places_filter htakes) (takes_filter htakes) hc₁
    rw [← List.map_eq_flatMap] at hordered
    have hself := hx.self
    obtain ⟨token, children, kind, filters, span⟩ := x
    have hall : Span.InOrder c.position.offset (token.span :: (filters ++ fs).map FilterCall.span)
        d.position.offset := by
      rw [List.map_append]
      exact (hspans.append hordered).mono (Nat.le_refl _) hend
    have hcovers : ∀ f ∈ filters ++ fs, ∃ text blanks, f.Covers source text blanks := by
      intro f hf
      rcases List.mem_append.mp hf with hf | hf
      · obtain ⟨text, blanks, hcovers, -⟩ := hself.within f hf
        exact ⟨text, blanks, hcovers⟩
      · exact hfs f hf
    refine ⟨.of_within (fits_trimGap hc hmoves hbegins hends) hall.pairwise fun f hf => ?_, hall⟩
    obtain ⟨text, blanks, hf'⟩ := hcovers f hf
    obtain ⟨hlo, hhi⟩ := hall.within f.span (List.mem_cons_of_mem _ (List.mem_map_of_mem hf))
    have hstop := hf'.stop_le
    exact ⟨text, blanks, hf', hf'.fits.within_trimGap hc hmoves hlo (Nat.le_trans hstop hhi)⟩

end Grammar

/-! ## Whole texts -/

/-- Every value in what is read of a text is followed by its filters: in a list of arguments and in an
expression, at any depth. -/
theorem Expr.filters_follow_of_read (source : String) :
    (∀ args, Argument.readList source = .ok args →
      ∀ a ∈ args, a.value.EveryNode (Expr.FiltersFollow source.toList)) ∧
    ∀ e, Expr.read source = .ok e → e.EveryNode (Expr.FiltersFollow source.toList) := by
  constructor
  · intro args h
    exact arranges_filters.of_readList h
  · intro e h
    exact arranges_filters.of_read h

/-- Behind a filter without parentheses a blank belongs to its span, and not to that of the value. -/
theorem Expr.read_blankBehindFilter :
    ∃ e f, Expr.read "x|f " = .ok e ∧ e.filters = [f] ∧ ¬ f.span.Within e.span ∧
      f.span.textIn "x|f ".toList = "|f ".toList := by
  obtain ⟨e, f, hread, hfilters, hvalue, hstop, htext⟩ : ∃ e f, Expr.read "x|f " = .ok e ∧
      e.filters = [f] ∧ e.span.stop = 3 ∧ f.span.stop = 4 ∧
        f.span.textIn "x|f ".toList = "|f ".toList :=
    ⟨_, _, rfl, rfl, rfl, rfl, rfl⟩
  refine ⟨e, f, hread, hfilters, ?_, htext⟩
  rintro ⟨-, hwithin⟩
  omega

/-- Blanks behind filters in a group, in front of a parenthesis, and at the end. -/
theorem Expr.filters_follow_blanks :
    (∃ args, Argument.readList "k=(x|f )|g (1 ), y|f|g " = .ok args ∧ args.length = 2 ∧
      ∀ a ∈ args, a.value.EveryNode (Expr.FiltersFollow "k=(x|f )|g (1 ), y|f|g ".toList)) ∧
    ∃ e, Expr.read "['é'|f |g , x|f(y|g )] |f " = .ok e ∧
      e.EveryNode (Expr.FiltersFollow "['é'|f |g , x|f(y|g )] |f ".toList) := by
  obtain ⟨args, hargs, hlength⟩ : ∃ args,
      Argument.readList "k=(x|f )|g (1 ), y|f|g " = .ok args ∧ args.length = 2 :=
    ⟨_, rfl, rfl⟩
  obtain ⟨e, he⟩ : ∃ e, Expr.read "['é'|f |g , x|f(y|g )] |f " = .ok e := ⟨_, rfl⟩
  exact ⟨⟨args, hargs, hlength, (Expr.filters_follow_of_read _).1 args hargs⟩, e, he,
    (Expr.filters_follow_of_read _).2 e he⟩

end TagTemplate
