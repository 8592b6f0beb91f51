import TagTemplate.Proofs.Expression.Alone

/-!
# Texts that were found

`Found p text a` says that somewhere `p` has taken `text` for `a`, up to a gap at its end: what was
read of a source is put together of such texts. What is read one after another is a list of `Item`s,
each with the text that it was found in and what stands in front of that. A gap that a reader took at
the end of an item is moved in front of the next one, so that the texts have no gaps at their ends
(`Framed`), and the texts of the items together are what was read.

`Follows others text rest` says what may stand behind a text so that a reader stops there.

> `Run.exists_items`: what was read one after another is a list of items.
-/

namespace TagTemplate

open Reader Grammar
open Lexeme (Gap Around MayHaveComma Begins Ends Delimited)

theorem Cursor.Moves.split {c d : Cursor} {front back : List Char} (h : c.Moves (front ++ back) d) :
    ∃ m, c.Moves front m ∧ m.Moves back d := by
  refine ⟨⟨back ++ d.rest, c.position.after front⟩, ⟨?_, rfl⟩, rfl, ?_⟩
  · rw [h.rest, List.append_assoc]
  · rw [h.position, Position.after_append]

/-! ## What may follow -/

namespace Lexeme

/-- The text ends in a filter without arguments. -/
def EndsInFilter (text : List Char) : Prop :=
  ∃ front blanks name, text = front ++ '|' :: (blanks ++ name) ∧ Gap blanks ∧
    name? name = some (name, [])

/-- What stands behind a text ends its last lexeme, begins over a gap with none of the characters
`others`, and is no arguments for a filter. -/
structure Follows (others : List Char) (text rest : List Char) : Prop where
  delimited : Delimited rest
  separate : ∀ c ∈ (afterGap rest).head?, c ∉ others
  noArguments : EndsInFilter text → ∀ r, afterGap rest ≠ '(' :: r

variable {others others' front text rest blanks : List Char}

theorem EndsInFilter.append (h : EndsInFilter text) (front : List Char) :
    EndsInFilter (front ++ text) := by
  obtain ⟨before, blanks, name, rfl, hname⟩ := h
  exact ⟨front ++ before, blanks, name, (List.append_assoc ..).symm, hname⟩

theorem delimited_gap_append (hblanks : Gap blanks) (h : Delimited rest) :
    Delimited (blanks ++ rest) := by
  cases blanks with
  | nil => exact h
  | cons c blanks => exact fun d hd => delimited_of_isGap hblanks d hd

theorem Follows.mono (h : Follows others text rest) (hothers : ∀ c ∈ others', c ∈ others) :
    Follows others' text rest where
  delimited := h.delimited
  separate := fun c hc hmem => h.separate c hc (hothers c hmem)
  noArguments := h.noArguments

/-- What may follow a text may follow the end of it. -/
theorem Follows.of_append (h : Follows others (front ++ text) rest) : Follows others text rest where
  delimited := h.delimited
  separate := h.separate
  noArguments := fun hends => h.noArguments (hends.append front)

theorem Follows.ne_cons (h : Follows others text rest) {c : Char} (hc : c ∈ others) :
    ∀ r, afterGap rest ≠ c :: r := by
  intro r heq
  exact h.separate c (by rw [heq]; rfl) hc

/-- Behind no text, only what stands there matters. -/
theorem follows_nil {c : Char} (hrest : Delimited rest) (hne : ∀ r, afterGap rest ≠ c :: r) :
    Follows [c] [] rest := by
  refine ⟨hrest, fun d hd hmem => ?_, fun hends => ?_⟩
  · obtain rfl := List.mem_singleton.mp hmem
    obtain ⟨r, hr⟩ := List.head?_eq_some_iff.mp hd
    exact hne r hr
  · obtain ⟨front, blanks, name, hnil, -⟩ := hends
    exact absurd hnil.symm (List.append_ne_nil_of_right_ne_nil _ (List.cons_ne_nil _ _))

/-- A gap at the end of a source goes on with nothing. -/
theorem follows_gap (h : Gap blanks) (others text : List Char) : Follows others text blanks := by
  refine ⟨delimited_of_isGap h, ?_, ?_⟩
  · rw [afterGap_of_gap h]
    exact fun _ hc => by cases hc
  · intro _ r heq
    rw [afterGap_of_gap h] at heq
    cases heq

/-- A character over a gap that goes on with nothing. -/
theorem follows_of_afterGap {c : Char} {r : List Char} (hrest : Delimited rest)
    (hafter : afterGap rest = c :: r) (hne : EndsInFilter text → c ≠ '(') (hothers : c ∉ others) :
    Follows others text rest := by
  refine ⟨hrest, ?_, ?_⟩
  · rw [hafter]
    intro d hd
    cases hd
    exact hothers
  · intro hends s heq
    rw [hafter] at heq
    exact hne hends (List.cons.inj heq).1

/-- A gap and a symbol that goes on with nothing. -/
theorem follows_gap_cons {c : Char} (hblanks : Gap blanks) (hc : c ∈ delimiters)
    (hgap : isGap c = false) (hne : c ≠ '(') (hothers : c ∉ others) (text rest : List Char) :
    Follows others text (blanks ++ c :: rest) := by
  have hafter : afterGap (blanks ++ c :: rest) = c :: rest := by
    rw [afterGap_append hblanks, afterGap_cons hgap]
  exact follows_of_afterGap (delimited_gap_append hblanks (delimited_cons hc rest)) hafter
    (fun _ => hne) hothers

/-- A gap, a comma or both, and what goes on with nothing. -/
theorem follows_separator {separator r : List Char} {c : Char} (h : MayHaveComma separator)
    (hne : separator ≠ []) (hcomma : ',' ∉ others) (hgap : isGap c = false)
    (hparen : EndsInFilter text → c ≠ '(') (hothers : c ∉ others) :
    Follows others text (separator ++ c :: r) := by
  rcases h with hblanks | ⟨before, after, hbefore, -, rfl⟩
  · have hdelimited : Delimited (separator ++ c :: r) := by
      obtain ⟨d, blanks, rfl⟩ := List.exists_cons_of_ne_nil hne
      exact fun x hx => delimited_of_isGap hblanks x hx
    have hafter : afterGap (separator ++ c :: r) = c :: r := by
      rw [afterGap_append hblanks, afterGap_cons hgap]
    exact follows_of_afterGap hdelimited hafter hparen hothers
  · rw [List.append_assoc, List.append_assoc]
    exact follows_gap_cons hbefore (by decide) rfl (by decide) hcomma text _

theorem delimited_around {ch : Char} {lead : List Char} (h : Around [ch] lead)
    (hch : ch ∈ delimiters) (rest : List Char) : Delimited (lead ++ rest) := by
  obtain ⟨before, after, hbefore, -, rfl⟩ := h
  rw [List.append_assoc, List.append_assoc]
  exact delimited_gap_append hbefore (delimited_cons hch _)

/-- A text that begins and ends in no gap. -/
structure Framed (text : List Char) : Prop where
  begins : ∃ c r, text = c :: r ∧ isGap c = false
  ends : ∃ init last, text = init ++ [last] ∧ isGap last = false

theorem Framed.ne_nil (h : Framed text) : text ≠ [] := by
  obtain ⟨c, r, rfl, -⟩ := h.begins
  exact List.cons_ne_nil c r

theorem Framed.afterGap_append (h : Framed text) (rest : List Char) :
    afterGap (text ++ rest) = text ++ rest := by
  obtain ⟨c, r, rfl, hc⟩ := h.begins
  exact afterGap_cons hc _

end Lexeme

open Lexeme (Framed Follows)

/-- A gap behind a text that does not end in one is all that is trimmed. -/
theorem trimGap_append_gap {text blanks : List Char}
    (h : ∃ init last, text = init ++ [last] ∧ Lexeme.isGap last = false) (hblanks : Gap blanks) :
    trimGap (text ++ blanks) = text := by
  obtain ⟨init, last, rfl, hlast⟩ := h
  rw [trimGap_append hblanks, trimGap_concat hlast]

/-- What is taken of a text differs from it in a gap at its end, if only a gap more or less is left
of it. -/
theorem trimGap_eq_of_afterGap {text taken rest r : List Char}
    (htext : ∃ init last, text = init ++ [last] ∧ Lexeme.isGap last = false)
    (h : text ++ rest = taken ++ r) (hr : afterGap r = afterGap rest) : trimGap taken = text := by
  have hsplit : ∀ cs, cs = cs.takeWhile Lexeme.isGap ++ afterGap cs :=
    fun cs => List.takeWhile_append_dropWhile.symm
  rw [hsplit rest, hsplit r, hr, ← List.append_assoc, ← List.append_assoc] at h
  rw [← trimGap_append (Lexeme.gap_takeWhile r) taken, ← List.append_cancel_right h]
  exact trimGap_append_gap htext (Lexeme.gap_takeWhile rest)

namespace Reader

variable {α : Type} {p : Reader α} {c d e : Cursor} {a : α} {as : List α} {text front : List Char}

/-! ## Found texts -/

/-- Goes on behind a symbol with gaps around it. -/
theorem reads_around_bind {ch : Char} {lead cs : List Char} {post : α → List Char → Prop}
    (hlead : Around [ch] lead) (hch : Lexeme.isGap ch = false) (hbegins : afterGap cs = cs)
    (h : Reads p cs post) :
    Reads (do let _ ← gap; let _ ← symbol ch; let _ ← gap; p) (lead ++ cs) post := by
  obtain ⟨before, after, hbefore, hafter, rfl⟩ := hlead
  rw [List.append_assoc, List.append_assoc]
  refine Reads.gap_bind fun _ => ?_
  rw [afterGap_append hbefore, List.singleton_append, afterGap_cons hch]
  refine Reads.symbol_bind (Reads.gap_bind fun _ => ?_)
  rwa [afterGap_append hafter, hbegins]

/-- Somewhere the reader takes the text for `a`, up to a gap at the end. -/
def Found (p : Reader α) (text : List Char) (a : α) : Prop :=
  ∃ c d taken, p.read? c = some (a, d) ∧ c.Moves taken d ∧ text = trimGap taken

/-- The reader takes texts that begin in no gap and do not consist of gaps. -/
def Frames (p : Reader α) : Prop :=
  ∀ {text a}, Found p text a → Framed text

/-- A reader frames its texts if the texts that it takes begin and end like expressions. -/
theorem frames_of_edges (h : ∀ {c a d}, p.read? c = some (a, d) → ∃ taken, c.Moves taken d ∧
    (∃ x r, taken = x :: r ∧ Lexeme.isGap x = false) ∧ Ends taken d.rest) : Frames p := by
  intro text a hfound
  obtain ⟨c, d, taken, hread, hmoves, rfl⟩ := hfound
  obtain ⟨taken', hmoves', ⟨x, r, hbegins, hx⟩, hends⟩ := h hread
  obtain rfl := hmoves.text_eq hmoves'
  obtain ⟨init, last, -, htrim, hlast, -⟩ := exists_concat_trimGap hends
  obtain ⟨s, hs⟩ := trimGap_cons hx r
  exact ⟨⟨x, s, by rw [hbegins, hs], hx⟩, init, last, htrim, isGap_of_isBlank hlast⟩

/-- What was read is a found text and a gap. -/
theorem exists_found (h : p.read? c = some (a, d)) (hp : Takes p) :
    ∃ text blanks m, Found p text a ∧ c.Moves text m ∧ Gap blanks ∧ m.Moves blanks d := by
  obtain ⟨taken, hmoves⟩ := hp.moves h
  obtain ⟨blanks, hblanks, hsplit⟩ := exists_trimGap taken
  have hmoves' := hmoves
  rw [hsplit] at hmoves'
  obtain ⟨m, hm, hm'⟩ := hmoves'.split
  exact ⟨_, blanks, m, ⟨c, d, taken, h, hmoves, rfl⟩, hm, hblanks, hm'⟩

/-- What was read last is found at the end of the text that was taken. -/
theorem exists_found_last {taken : List Char} (hp : Takes p) (hframes : Frames p)
    (hread : p.read? d = some (a, e)) (hfront : c.Moves front d) (hmoves : c.Moves taken e) :
    ∃ text, Found p text a ∧ trimGap taken = front ++ text := by
  obtain ⟨text, blanks, m, hfound, htext, hblanks, hm⟩ := exists_found hread hp
  obtain ⟨init, last, rfl, hlast⟩ := (hframes hfound).ends
  refine ⟨_, hfound, ?_⟩
  rw [hmoves.text_eq ((hfront.trans htext).trans hm)]
  exact trimGap_append_gap ⟨front ++ init, last, (List.append_assoc ..).symm, hlast⟩ hblanks

/-! ## Items -/

/-- One of several things that were read one after another: what stands in front of its text, its
text, and what it was read as. -/
structure Item (α : Type) where
  lead : List Char
  text : List Char
  value : α

/-- All that stands in a source for an item. -/
def Item.source (x : Item α) : List Char :=
  x.lead ++ x.text

/-- The items were found, with such texts in front of them. -/
def AllFound (lead : List Char → Prop) (p : Reader α) (items : List (Item α)) : Prop :=
  ∀ x ∈ items, lead x.lead ∧ Found p x.text x.value

/-- What was read one after another is a list of items, and a gap behind them. The induction moves
the gap at the end of an item to the next one. -/
theorem Run.exists_items {lead : List Char → Prop} (h : Run lead p c as d) (hp : Takes p)
    (hlead : ∀ {blanks text}, Gap blanks → lead text → lead (blanks ++ text))
    {blanks : List Char} (hblanks : Gap blanks) (hmoves : e.Moves blanks c) :
    ∃ items back m, as = items.map Item.value ∧ AllFound lead p items ∧
      e.Moves (items.flatMap Item.source) m ∧ Gap back ∧ m.Moves back d := by
  induction h generalizing e blanks with
  | nil c =>
    exact ⟨[], blanks, e, rfl, fun _ hx => absurd hx List.not_mem_nil, .nil e, hblanks, hmoves⟩
  | @cons _ c₁ c₂ _ front a _ hfront hm hitem _ ih =>
    obtain ⟨text, blanks', m, hfound, hm', hblanks', hm''⟩ := exists_found hitem hp
    obtain ⟨items, back, m', hvalues, hitems, hmoves', hback⟩ := ih hblanks' hm''
    refine ⟨⟨blanks ++ front, text, a⟩ :: items, back, m', ?_, ?_, ?_, hback⟩
    · rw [hvalues, List.map_cons]
    · exact List.forall_mem_cons.mpr ⟨⟨hlead hblanks hfront, hfound⟩, hitems⟩
    · rw [List.flatMap_cons]
      exact ((hmoves.trans hm).trans hm').trans hmoves'

variable {lead : List Char → Prop} {items : List (Item α)} {first : List Char}

/-- The text of an item is no longer than all that stands for the items. -/
theorem Item.length_text_le {x : Item α} (h : x ∈ items) :
    x.text.length ≤ (items.flatMap Item.source).length := by
  have hsource := length_le_flatMap Item.source h
  rw [Item.source, List.length_append] at hsource
  omega

/-- A text with items behind it ends as the last of them does, or as the text itself. -/
theorem ends_items (hfirst : ∃ init last, first = init ++ [last] ∧ Lexeme.isGap last = false)
    (hitems : AllFound lead p items) (hp : Frames p) :
    ∃ init last, first ++ items.flatMap Item.source = init ++ [last] ∧
      Lexeme.isGap last = false := by
  induction items generalizing first with
  | nil =>
    rw [List.flatMap_nil, List.append_nil]
    exact hfirst
  | cons x items ih =>
    obtain ⟨hx, hmore⟩ := List.forall_mem_cons.mp hitems
    obtain ⟨init, last, htext, hlast⟩ := (hp hx.2).ends
    rw [List.flatMap_cons, ← List.append_assoc]
    refine ih ⟨first ++ (x.lead ++ init), last, ?_, hlast⟩ hmore
    rw [Item.source, htext, List.append_assoc, List.append_assoc]

/-- The text of the last item stands at the end. -/
theorem exists_append_last {x : Item α} (h : x ∈ items.getLast?) (first : List Char) :
    ∃ front, first ++ items.flatMap Item.source = front ++ x.text := by
  obtain ⟨init, rfl⟩ := List.getLast?_eq_some_iff.mp h
  refine ⟨first ++ (init.flatMap Item.source ++ x.lead), ?_⟩
  rw [List.flatMap_append, List.flatMap_singleton, Item.source]
  simp only [List.append_assoc]

end Reader

end TagTemplate
