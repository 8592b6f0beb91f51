import TagTemplate.Proofs.Expression.Edges
import TagTemplate.Proofs.Expression.Evaluable

/-!
# Spans describe the source

Every part of what is read remembers its place in the source. `Expr.IsPlaced` and `Argument.IsPlaced`
say what a place is good for: it can be cut out of the source, it neither begins nor ends with white
space, and the places of the parts of a whole lie in it one behind the other.

> `placed_of_read`: all places in what is read of a text are right, at any depth.

Two things keep spans in their places. Whatever is read lies between the cursors before and behind
it, so that the spans of parts that are read one after another are in order (`InOrder`). And a span
that does not end with white space lies in a text without the gap at its end as soon as it lies in
the text (`Fits.within_trimGap`), so that it does not matter which of the rules around a part takes
the gap behind it.

The rules are gone through once, for any property of nodes and any spans of theirs (`Arranges`).
-/

namespace TagTemplate

/-! ## Spans -/

namespace Span

/-- The first span ends in front of the second. -/
def Before (s t : Span) : Prop :=
  s.stop ≤ t.start.offset

/-- The first span lies in the second. -/
def Within (s t : Span) : Prop :=
  t.start.offset ≤ s.start.offset ∧ s.stop ≤ t.stop

/-- The span is that of a piece of the source which neither begins nor ends with white space. It
begins at the place behind the text in front of it, and ends at the offset behind its own text. -/
def Fits (source : List Char) (s : Span) : Prop :=
  ∃ front text back, source = front ++ (text ++ back) ∧ s.start = Position.start.after front ∧
    s.stop = byteSize (front ++ text) ∧
    (∃ first r, text = first :: r ∧ Text.isBlank first = false) ∧
    ∃ init last, text = init ++ [last] ∧ Text.isBlank last = false

/-- The spans lie one behind the other between two offsets. -/
def InOrder : Nat → List Span → Nat → Prop
  | lo, [], hi => lo ≤ hi
  | lo, s :: rest, hi => lo ≤ s.start.offset ∧ s.start.offset ≤ s.stop ∧ InOrder s.stop rest hi

variable {source : List Char} {s t : Span} {spans spans' : List Span} {lo lo' mid hi hi' : Nat}

theorem Fits.start_le_stop (h : s.Fits source) : s.start.offset ≤ s.stop := by
  obtain ⟨front, text, back, -, hstart, hstop, -⟩ := h
  rw [hstart, hstop, Position.offset_after, byteSize_append]
  show 0 + byteSize front ≤ _
  omega

theorem InOrder.le (h : InOrder lo spans hi) : lo ≤ hi := by
  induction spans generalizing lo with
  | nil => exact h
  | cons s rest ih =>
    obtain ⟨hlo, hspan, hrest⟩ := h
    have hhi := ih hrest
    omega

theorem InOrder.mono (h : InOrder lo spans hi) (hlo : lo' ≤ lo) (hhi : hi ≤ hi') :
    InOrder lo' spans hi' := by
  induction spans generalizing lo lo' with
  | nil => exact Nat.le_trans hlo (Nat.le_trans h hhi)
  | cons s rest ih => exact ⟨Nat.le_trans hlo h.1, h.2.1, ih h.2.2 (Nat.le_refl _)⟩

theorem InOrder.append (h : InOrder lo spans mid) (h' : InOrder mid spans' hi) :
    InOrder lo (spans ++ spans') hi := by
  induction spans generalizing lo with
  | nil => exact h'.mono h (Nat.le_refl _)
  | cons s rest ih => exact ⟨h.1, h.2.1, ih h.2.2⟩

theorem InOrder.within (h : InOrder lo spans hi) :
    ∀ s ∈ spans, lo ≤ s.start.offset ∧ s.stop ≤ hi := by
  induction spans generalizing lo with
  | nil => exact fun s hs => absurd hs List.not_mem_nil
  | cons t rest ih =>
    obtain ⟨hlo, hspan, hrest⟩ := h
    refine List.forall_mem_cons.mpr ⟨⟨hlo, hrest.le⟩, fun s hs => ?_⟩
    obtain ⟨hstart, hstop⟩ := ih hrest s hs
    exact ⟨by omega, hstop⟩

theorem InOrder.pairwise (h : InOrder lo spans hi) : spans.Pairwise Before := by
  induction spans generalizing lo with
  | nil => exact .nil
  | cons s rest ih =>
    obtain ⟨-, -, hrest⟩ := h
    exact .cons (fun t ht => (hrest.within t ht).1) (ih hrest)

end Span

/-! ## Expressions and arguments -/

/-- The places of an expression and of its parts. -/
structure Expr.IsPlaced (source : List Char) (e : Expr) : Prop where
  span : e.span.Fits source
  token : e.token.span.Fits source
  token_within : e.token.span.Within e.span
  /-- The token is the piece of source at its place, unless it holds what a string means. -/
  text : e.kind ≠ .text → e.token.text = String.ofList (e.token.span.textIn source)
  /-- Items, entries and operands lie in the token. -/
  children_within : ∀ x ∈ e.children, x.span.Within e.token.span
  children_ordered : (e.children.map Expr.span).Pairwise Span.Before
  /-- Arguments of filters lie behind the token. -/
  args_within : ∀ f ∈ e.filters, ∀ x ∈ f.args, x.span.Within e.span ∧ e.token.span.Before x.span
  args_ordered : ((e.filters.flatMap FilterCall.args).map Expr.span).Pairwise Span.Before

/-- All places in the expression are right, at any depth. -/
def Expr.Placed (source : List Char) (e : Expr) : Prop :=
  e.EveryNode (Expr.IsPlaced source)

/-- The places of an argument and of its parts. -/
structure Argument.IsPlaced (source : List Char) (a : Argument) : Prop where
  span : a.span.Fits source
  key : ∀ k ∈ a.key, k.span.Fits source ∧ k.span.Within a.span ∧ k.span.Before a.value.span
  value_within : a.value.span.Within a.span
  value : a.value.Placed source

theorem Expr.Placed.isPlaced {source : List Char} {e : Expr} (h : e.Placed source) :
    e.IsPlaced source := by
  obtain ⟨token, children, kind, filters, span⟩ := e
  exact h.1

open Reader Grammar
open Lexeme (Gap Begins Ends)

/-! ## Texts between two cursors -/

/-- The cursor stands in the source. -/
def Cursor.StandsIn (source : List Char) (c : Cursor) : Prop :=
  ∃ front, (Cursor.mk source .start).Moves front c

variable {source taken text back : List Char} {c d : Cursor} {s : Span}

theorem Cursor.StandsIn.moves (h : c.StandsIn source) (hmoves : c.Moves text d) :
    d.StandsIn source := by
  obtain ⟨front, hfront⟩ := h
  exact ⟨_, hfront.trans hmoves⟩

theorem Cursor.Moves.offset_le (h : c.Moves text d) : c.position.offset ≤ d.position.offset := by
  rw [h.offset_eq]
  exact Nat.le_add_right ..

/-- A text in the source that begins and ends as it should. -/
theorem fits_over (hc : c.StandsIn source) (hrest : c.rest = text ++ back)
    (hfirst : ∃ first r, text = first :: r ∧ Text.isBlank first = false)
    (hlast : ∃ init last, text = init ++ [last] ∧ Text.isBlank last = false) :
    (Span.over c.position text).Fits source := by
  obtain ⟨front, hfront⟩ := hc
  refine ⟨front, text, back, ?_, hfront.position, ?_, hfirst, hlast⟩
  · rw [← hrest]
    exact hfront.rest
  · have hoffset := hfront.offset_eq
    have hzero : (Cursor.mk source .start).position.offset = 0 := rfl
    show c.position.offset + byteSize text = byteSize (front ++ text)
    rw [byteSize_append]
    omega

section Trimmed

variable (hc : c.StandsIn source) (hmoves : c.Moves taken d)
include hmoves

/-- A text and the gap at its end. -/
theorem exists_rest_trimGap :
    ∃ blanks, Gap blanks ∧ taken = trimGap taken ++ blanks ∧
      c.rest = trimGap taken ++ (blanks ++ d.rest) := by
  obtain ⟨blanks, hblanks, htaken⟩ := exists_trimGap taken
  refine ⟨blanks, hblanks, htaken, ?_⟩
  rw [hmoves.rest, ← List.append_assoc, ← htaken]

theorem inOrder_trimGap :
    Span.InOrder c.position.offset [.over c.position (trimGap taken)] d.position.offset := by
  obtain ⟨blanks, -, htaken, -⟩ := exists_rest_trimGap hmoves
  have hoffset := hmoves.offset_eq
  rw [htaken, byteSize_append] at hoffset
  refine ⟨Nat.le_refl _, Nat.le_add_right .., ?_⟩
  show c.position.offset + byteSize (trimGap taken) ≤ d.position.offset
  omega

include hc

theorem fits_trimGap (hbegins : Begins taken) (hends : Ends taken d.rest) :
    (Span.over c.position (trimGap taken)).Fits source := by
  obtain ⟨blanks, -, -, hrest⟩ := exists_rest_trimGap hmoves
  obtain ⟨init, last, -, hinit, hlast, -⟩ := exists_concat_trimGap hends
  exact fits_over hc hrest (begins_trimGap hbegins).exists_cons ⟨init, last, hinit, hlast⟩

theorem textIn_trimGap : (Span.over c.position (trimGap taken)).textIn source = trimGap taken := by
  obtain ⟨front, hfront⟩ := hc
  obtain ⟨blanks, -, -, hrest⟩ := exists_rest_trimGap hmoves
  exact hfront.textIn_over hrest

/-- What does not end with white space does not end in the gap at the end. -/
theorem Span.Fits.stop_le_trimGap (h : s.Fits source) (hhi : s.stop ≤ d.position.offset) :
    s.stop ≤ c.position.offset + byteSize (trimGap taken) := by
  obtain ⟨front, hfront⟩ := hc
  obtain ⟨blanks, hblanks, htaken, hrest⟩ := exists_rest_trimGap hmoves
  obtain ⟨front', text, back, hsource, -, hstop, -, init, last, hinit, hlast⟩ := h
  have hstart : c.position.offset = byteSize front := by
    have hoffset := hfront.offset_eq
    have hzero : (Cursor.mk source .start).position.offset = 0 := rfl
    omega
  have hend := hmoves.offset_eq
  rw [htaken, byteSize_append] at hend
  -- otherwise the text goes on into the gap, and its last character is one of the gap
  refine Nat.le_of_not_lt fun hless => ?_
  have hsame : (front ++ trimGap taken) ++ (blanks ++ d.rest) = (front' ++ text) ++ back := by
    rw [List.append_assoc, ← hrest, List.append_assoc, ← hsource]
    exact hfront.rest.symm
  obtain ⟨middle, hmiddle, hback⟩ := exists_middle_of_byteSize_le hsame
    (by rw [byteSize_append]; omega)
  have hsize : byteSize (front' ++ text) = byteSize (front ++ trimGap taken) + byteSize middle := by
    rw [hmiddle, byteSize_append]
  rw [byteSize_append front] at hsize
  obtain ⟨left, hleft, -⟩ := exists_middle_of_byteSize_le hback.symm (by omega)
  rcases List.eq_nil_or_concat middle with rfl | ⟨start, x, rfl⟩
  · have hnil : byteSize [] = 0 := rfl
    omega
  · rw [List.concat_eq_append] at hmiddle hleft
    rw [hinit, ← List.append_assoc, ← List.append_assoc] at hmiddle
    obtain ⟨-, hx⟩ := List.append_inj' hmiddle rfl
    obtain rfl := (List.cons.inj hx).1
    have hgap := hblanks last (by rw [hleft]; simp)
    rw [isBlank_of_isGap hgap] at hlast
    cases hlast

/-- What does not end with white space lies in front of the gap at the end. -/
theorem Span.Fits.within_trimGap (h : s.Fits source)
    (hlo : c.position.offset ≤ s.start.offset) (hhi : s.stop ≤ d.position.offset) :
    s.Within (.over c.position (trimGap taken)) :=
  ⟨hlo, h.stop_le_trimGap hc hmoves hhi⟩

end Trimmed

/-! ## What readers read -/

namespace Reader

variable {α : Type} {p : Reader α} {spans : α → List Span} {post : α → Prop} {as : List α}

/-- Whatever the reader reads of the source satisfies `post`, and its spans lie one behind the other
where it was read. -/
def Places (source : List Char) (p : Reader α) (spans : α → List Span) (post : α → Prop) : Prop :=
  ∀ c a d, c.StandsIn source → p.read? c = some (a, d) →
    post a ∧ Span.InOrder c.position.offset (spans a) d.position.offset

variable (hp : Places source p spans post) (htakes : Takes p)
include hp htakes

theorem Run.places {lead : List Char → Prop} (h : Run lead p c as d) (hc : c.StandsIn source) :
    (∀ a ∈ as, post a) ∧ Span.InOrder c.position.offset (as.flatMap spans) d.position.offset := by
  induction h with
  | nil c => exact ⟨fun a ha => absurd ha List.not_mem_nil, Nat.le_refl _⟩
  | cons _ hmoves hitem _ ih =>
    obtain ⟨taken, htaken⟩ := htakes.moves hitem
    obtain ⟨ha, hfirst⟩ := hp _ _ _ (hc.moves hmoves) hitem
    obtain ⟨has, hmore⟩ := ih ((hc.moves hmoves).moves htaken)
    refine ⟨List.forall_mem_cons.mpr ⟨ha, has⟩, ?_⟩
    rw [List.flatMap_cons]
    exact (hfirst.mono hmoves.offset_le (Nat.le_refl _)).append hmore

end Reader

namespace Grammar

open Reader

section Bracketed

variable {α : Type} {item : Reader α} {spans : α → List Span} {post : α → Prop} {as : List α}

theorem Bracketed.places {opening closing : Char} (h : Bracketed opening closing item c as d)
    (hitem : Places source item spans post) (htakes : Takes item) (hc : c.StandsIn source) :
    (∀ a ∈ as, post a) ∧ Span.InOrder c.position.offset (as.flatMap spans) d.position.offset := by
  cases h with
  | nil _ hmoves => exact ⟨fun a ha => absurd ha List.not_mem_nil, hmoves.offset_le⟩
  | cons _ hopen hfirst hmore _ hclose =>
    obtain ⟨taken, htaken⟩ := htakes.moves hfirst
    have hc₁ := hc.moves hopen
    obtain ⟨ha, hspans⟩ := hitem _ _ _ hc₁ hfirst
    obtain ⟨has, hrest⟩ := hmore.places hitem htakes (hc₁.moves htaken)
    refine ⟨List.forall_mem_cons.mpr ⟨ha, has⟩, ?_⟩
    rw [List.flatMap_cons]
    exact (hspans.append hrest).mono hopen.offset_le hclose.offset_le

end Bracketed

/-! ## Nodes where they were read

`Arranges` says of a property of nodes, and of spans that a node has, what the rules of the language
have to do for it: out of parts whose nodes have the property they make a node that has it, and its spans
lie where it was read if those of the parts do. Then everything that is read is like this, at any depth
(`Arranges.of_readList`, `Arranges.of_read`). -/

/-- What a rule makes of its parts satisfies `q`, and its spans lie where it was read. -/
structure Arranges (source : List Char) (spans : Expr → List Span) (q : Expr → Prop) : Prop where
  /-- A whole whose token is the text that was read, with its parts in this text. -/
  plain : ∀ {c d : Cursor} {taken : List Char} (kind : Expr.Kind) {children : List Expr},
    c.StandsIn source → c.Moves taken d → Begins taken → Ends taken d.rest →
    (∀ x ∈ children, x.EveryNode q) →
    Span.InOrder c.position.offset (children.flatMap spans) d.position.offset →
      q (.plain (tokenOf c.position taken) kind children) ∧
        Span.InOrder c.position.offset (spans (.plain (tokenOf c.position taken) kind children))
          d.position.offset
  /-- A string, or a name in the place of one. -/
  text : ∀ {c d : Cursor} {taken : List Char} (means : String),
    c.StandsIn source → c.Moves taken d → Begins taken →
    (∃ init last, taken = init ++ [last] ∧ Text.isBlank last = false) →
      q (.plain ⟨means, .over c.position taken⟩ .text []) ∧
        Span.InOrder c.position.offset (spans (.plain ⟨means, .over c.position taken⟩ .text []))
          d.position.offset
  /-- Filters behind an expression, and a span that takes them in. -/
  filters : ∀ {inner : Reader Expr} {c c₁ c₂ d : Cursor} {taken : List Char} {x : Expr}
    {fs : List (FilterCall Expr)}, Takes inner → c.StandsIn source → x.EveryNode q →
    Span.InOrder c.position.offset (spans x) c₁.position.offset →
    c₁.StandsIn source → Run Gap (filter inner) c₁ fs c₂ →
    (∀ f ∈ fs, ∀ y ∈ f.args, y.EveryNode q) →
    Span.InOrder c₁.position.offset (fs.flatMap fun f => f.args.flatMap spans)
      c₂.position.offset →
    c₂.position.offset ≤ d.position.offset →
    c.Moves taken d → Begins taken → Ends taken d.rest →
      q (x.withFilters fs (tokenOf c.position taken).span) ∧
        Span.InOrder c.position.offset (spans (x.withFilters fs (tokenOf c.position taken).span))
          d.position.offset

section Arranges

variable {spans : Expr → List Span} {q : Expr → Prop} {inner : Reader Expr} {x : Expr}
  (hq : Arranges source spans q) (hinner : Places source inner spans (Expr.EveryNode q))
include hq hinner

theorem Arranges.dictItem : Places source (dictItem inner) (fun entry => entry.flatMap spans)
    fun entry => ∀ x ∈ entry, x.EveryNode q := by
  intro c entry d hc h
  obtain ⟨⟨name, span⟩, c₁, lead, c₂, value, hkey, -, hmoves, hvalue, rfl⟩ := dictItem_eq_some h
  obtain ⟨taken, htaken, hspan, hbegins, hlast⟩ := dictKey_edges hkey
  obtain rfl : span = .over c.position taken := hspan
  obtain ⟨hname, hfirst⟩ := hq.text name hc htaken hbegins hlast
  obtain ⟨hplaced, hsecond⟩ := hinner _ _ _ ((hc.moves htaken).moves hmoves) hvalue
  refine ⟨?_, ?_⟩
  · exact List.forall_mem_cons.mpr
      ⟨⟨hname, trivial, trivial⟩, List.forall_mem_singleton.mpr hplaced⟩
  · have hboth := hfirst.append (hsecond.mono hmoves.offset_le (Nat.le_refl _))
    simpa only [List.flatMap_cons, List.flatMap_nil, List.append_nil] using hboth

variable (htakes : Takes inner)
include htakes

theorem Arranges.primary (h : Primary inner c x d) (hc : c.StandsIn source) :
    x.EveryNode q ∧ Span.InOrder c.position.offset (spans x) d.position.offset := by
  obtain ⟨taken, hmoves, hbegins, hends⟩ := h.edges htakes
  -- a whole with its parts in the text that was read
  have hwhole : ∀ (kind : Expr.Kind) {children : List Expr}, (∀ x ∈ children, x.EveryNode q) →
      Span.InOrder c.position.offset (children.flatMap spans) d.position.offset →
        (Expr.plain (tokenOf c.position taken) kind children).EveryNode q ∧
          Span.InOrder c.position.offset
            (spans (.plain (tokenOf c.position taken) kind children)) d.position.offset := by
    intro kind children hchildren hordered
    obtain ⟨hself, hspans⟩ := hq.plain kind hc hmoves hbegins hends hchildren hordered
    exact ⟨⟨hself, Expr.everyNodeIn_iff.mpr hchildren, trivial⟩, hspans⟩
  cases h with
  | group _ hopen hread _ hclose =>
    obtain ⟨hplaced, hspan⟩ := hinner _ _ _ (hc.moves hopen) hread
    exact ⟨hplaced, hspan.mono hopen.offset_le hclose.offset_le⟩
  | list hitems hmoves' =>
    obtain rfl := hmoves.text_eq hmoves'
    obtain ⟨hplaced, hordered⟩ := hitems.places hinner htakes hc
    exact hwhole .list hplaced hordered
  | @dict _ _ entries hread hmoves' =>
    obtain rfl := hmoves.text_eq hmoves'
    obtain ⟨hplaced, hordered⟩ :=
      hread.places (hq.dictItem hinner) (takes_dictItem htakes) hc
    have hentries : (entries.flatMap fun entry => entry.flatMap spans) =
        entries.flatten.flatMap spans := by
      rw [← List.flatMap_id, List.flatMap_assoc]
      rfl
    rw [hentries] at hordered
    refine hwhole .dict (fun x hx => ?_) hordered
    obtain ⟨entry, hentry, hx⟩ := List.mem_flatten.mp hx
    exact hplaced entry hentry x hx
  | literal _ hmoves' =>
    obtain rfl := hmoves.text_eq hmoves'
    exact hwhole _ (fun x hx => absurd hx List.not_mem_nil) hmoves.offset_le
  | text hstring hmoves' =>
    obtain rfl := hmoves.text_eq hmoves'
    obtain ⟨quote, inside, hquote, -, htext⟩ := Lexeme.string?_eq_some hstring
    have hlast : ∃ init last, taken = init ++ [last] ∧ Text.isBlank last = false := by
      rcases hquote with rfl | rfl <;> exact ⟨_, _, htext, rfl⟩
    obtain ⟨hself, hspans⟩ :=
      hq.text (String.ofList (Lexeme.meaning taken)) hc hmoves hbegins hlast
    exact ⟨⟨hself, trivial, trivial⟩, hspans⟩

omit hq in
/-- The arguments of a filter lie behind its bar. -/
theorem places_args : Places source (filter inner) (fun f => f.args.flatMap spans)
    fun f => ∀ x ∈ f.args, x.EveryNode q := by
  intro c f d hc h
  cases filter_eq_some h with
  | bare _ hbar _ hname _ _ hmoves =>
    exact ⟨fun x hx => absurd hx List.not_mem_nil, (hbar.trans (hname.trans hmoves)).offset_le⟩
  | args _ hbar _ hname _ _ hmoves hargs =>
    have hfront := hbar.trans (hname.trans hmoves)
    obtain ⟨hplaced, hordered⟩ := hargs.places hinner htakes (hc.moves hfront)
    exact ⟨hplaced, hordered.mono hfront.offset_le (Nat.le_refl _)⟩

theorem Arranges.operand : Places source (operand inner) spans (Expr.EveryNode q) := by
  intro c x d hc h
  obtain ⟨taken, htaken, hbegins, hends⟩ := operand_edges htakes h
  obtain ⟨y, c₁, fs, c₂, blanks, taken', hprimary, hfilters, -, hmoves, htaken', rfl⟩ :=
    operand_eq_some htakes h
  obtain rfl := htaken.text_eq htaken'
  obtain ⟨front, hfront, -, -⟩ := hprimary.edges htakes
  obtain ⟨hy, hspans⟩ := hq.primary hinner htakes hprimary hc
  obtain ⟨hfs, hordered⟩ :=
    hfilters.places (places_args hinner htakes) (takes_filter htakes) (hc.moves hfront)
  obtain ⟨hself, hwhole⟩ := hq.filters htakes hc hy hspans (hc.moves hfront) hfilters hfs hordered
    hmoves.offset_le htaken hbegins hends
  exact ⟨hy.withFilters hself hfs, hwhole⟩

theorem Arranges.expression : Places source (Grammar.expression inner) spans (Expr.EveryNode q) := by
  have hoperand := hq.operand hinner htakes
  intro c x d hc h
  obtain ⟨taken, htaken, hbegins, hends⟩ := expression_edges htakes h
  cases expression_eq_some htakes h with
  | single hread _ hmoves =>
    obtain ⟨hplaced, hspan⟩ := hoperand _ _ _ hc hread
    exact ⟨hplaced, hspan.mono (Nat.le_refl _) hmoves.offset_le⟩
  | @sum c₁ c₂ _ _ _ first second more hfirst hmore _ hmoves htaken' =>
    obtain rfl := htaken.text_eq htaken'
    obtain ⟨front, hfront, -, -⟩ := operand_edges htakes hfirst
    obtain ⟨hplaced, hspan⟩ := hoperand _ _ _ hc hfirst
    obtain ⟨hrest, hordered⟩ := hmore.places hoperand (takes_operand htakes) (hc.moves hfront)
    have hoperands : ∀ x ∈ first :: second :: more, x.EveryNode q :=
      List.forall_mem_cons.mpr ⟨hplaced, hrest⟩
    have hall : Span.InOrder c.position.offset ((first :: second :: more).flatMap spans)
        d.position.offset := by
      rw [List.flatMap_cons]
      exact (hspan.append hordered).mono (Nat.le_refl _) hmoves.offset_le
    obtain ⟨hself, hwhole⟩ := hq.plain .sum hc htaken hbegins hends hoperands hall
    exact ⟨⟨hself, Expr.everyNodeIn_iff.mpr hoperands, trivial⟩, hwhole⟩

theorem Arranges.argument : Places source (Grammar.argument inner) (fun a => spans a.value)
    fun a => a.value.EveryNode q := by
  have hexpression := hq.expression hinner htakes
  intro c a d hc h
  cases argument_eq_some htakes h with
  | keyed hkey _ hmoves hvalue _ =>
    obtain ⟨front, hfront, -, -, -⟩ := key_edges hkey
    have hlead := hfront.trans hmoves
    obtain ⟨hplaced, hspans⟩ := hexpression _ _ _ (hc.moves hlead) hvalue
    exact ⟨hplaced, hspans.mono hlead.offset_le (Nat.le_refl _)⟩
  | bare hvalue _ => exact hexpression _ _ _ hc hvalue

end Arranges

/-- The induction is on how deep brackets may be nested. -/
theorem Arranges.expressionAt {spans : Expr → List Span} {q : Expr → Prop}
    (hq : Arranges source spans q) (n : Nat) :
    Places source (Grammar.expressionAt n) spans (Expr.EveryNode q) := by
  induction n with
  | zero =>
    intro c x d _ h
    cases h
  | succ n ih =>
    rw [expressionAt_succ]
    exact hq.expression ih (takes_expressionAt n)

section Whole

variable {source : String} {spans : Expr → List Span} {q : Expr → Prop}
  (hq : Arranges source.toList spans q)
include hq

theorem Arranges.of_readList {args : List Argument} (h : Argument.readList source = .ok args) :
    ∀ a ∈ args, a.value.EveryNode q := by
  obtain ⟨d, hread⟩ := readAll_eq_ok_iff.mp (Argument.readList_eq_ok_iff.mp h).1
  obtain ⟨c, tail, hrun, -, -, -⟩ := signature_eq_some hread
  have htakes := takes_expressionAt (source.toList.length + 1)
  exact (hrun.places (hq.argument (hq.expressionAt _) htakes) (takes_argument htakes)
    ⟨[], .nil _⟩).1

theorem Arranges.of_read {e : Expr} (h : Expr.read source = .ok e) : e.EveryNode q := by
  obtain ⟨d, hread⟩ := readAll_eq_ok_iff.mp h
  obtain ⟨front, c, c', back, -, hfront, hread, -⟩ := output_eq_some hread
  have hc : c.StandsIn source.toList := ⟨_, hfront⟩
  exact (hq.expression (hq.expressionAt _) (takes_expressionAt _) _ _ _ hc hread).1

end Whole

/-! ## Places -/

/-- A whole whose token is the text that was read, with its parts in this text. -/
theorem isPlaced_plain {kind : Expr.Kind} {children : List Expr} (hc : c.StandsIn source)
    (hmoves : c.Moves taken d) (hbegins : Begins taken) (hends : Ends taken d.rest)
    (hchildren : ∀ x ∈ children, x.Placed source)
    (hordered : Span.InOrder c.position.offset (children.map Expr.span) d.position.offset) :
    (Expr.plain (tokenOf c.position taken) kind children).IsPlaced source := by
  have hfits : (Span.over c.position (trimGap taken)).Fits source :=
    fits_trimGap hc hmoves hbegins hends
  refine ⟨hfits, hfits, ⟨Nat.le_refl _, Nat.le_refl _⟩, fun _ => ?_, fun x hx => ?_,
    hordered.pairwise, fun f hf => absurd hf List.not_mem_nil, .nil⟩
  · exact congrArg String.ofList (textIn_trimGap hc hmoves).symm
  · obtain ⟨hlo, hhi⟩ := hordered.within x.span (List.mem_map_of_mem hx)
    exact (hchildren x hx).isPlaced.span.within_trimGap hc hmoves hlo hhi

/-- A string, or a name in the place of one: its token is its source, and its text what it means. -/
theorem isPlaced_text {token : Token} (h : token.span.Fits source) :
    (Expr.plain token .text []).IsPlaced source := by
  refine ⟨h, h, ⟨Nat.le_refl _, Nat.le_refl _⟩, fun hne => absurd rfl hne, ?_, .nil, ?_, .nil⟩
  · exact fun x hx => absurd hx List.not_mem_nil
  · exact fun f hf => absurd hf List.not_mem_nil

/-- Filters behind an expression, and a span that takes them in. -/
theorem isPlaced_withFilters {x : Expr} {fs : List (FilterCall Expr)} {c₁ c₂ : Cursor}
    (hc : c.StandsIn source) (hx : x.Placed source)
    (hspan : Span.InOrder c.position.offset [x.span] c₁.position.offset)
    (hfs : ∀ f ∈ fs, ∀ y ∈ f.args, y.Placed source)
    (hordered : Span.InOrder c₁.position.offset (fs.flatMap fun f => f.args.map Expr.span)
      c₂.position.offset)
    (hmoves : c.Moves taken d) (hend : c₂.position.offset ≤ d.position.offset)
    (hfits : (Span.over c.position (trimGap taken)).Fits source) :
    (x.withFilters fs (.over c.position (trimGap taken))).IsPlaced source := by
  obtain ⟨token, children, kind, filters, span⟩ := x
  obtain ⟨hself, -, hfilters⟩ := hx
  rw [← List.map_flatMap] at hordered
  obtain ⟨hlo, -, hhi⟩ := hspan
  have hmiddle := hordered.le
  have hlo : c.position.offset ≤ span.start.offset := hlo
  have hhi : span.stop ≤ c₁.position.offset := hhi
  obtain ⟨htokenLo, htokenHi⟩ : token.span.Within span := hself.token_within
  have hargs : ∀ f ∈ filters ++ fs, ∀ y ∈ f.args, y.Placed source := by
    intro f hf
    rcases List.mem_append.mp hf with hf | hf
    · exact Expr.everyNodeOf_iff.mp hfilters f hf
    · exact hfs f hf
  -- the new arguments lie behind everything that there was
  have hnew : ∀ f ∈ fs, ∀ y ∈ f.args,
      c₁.position.offset ≤ y.span.start.offset ∧ y.span.stop ≤ c₂.position.offset := by
    intro f hf y hy
    exact hordered.within y.span (List.mem_map_of_mem (List.mem_flatMap.mpr ⟨f, hf, hy⟩))
  refine ⟨hfits, hself.token, ?_, hself.text, hself.children_within, hself.children_ordered, ?_, ?_⟩
  · have htoken : token.span.Fits source := hself.token
    have hwithin := htoken.within_trimGap hc hmoves (by omega) (by omega)
    exact hwithin
  · intro f hf y hy
    have hy' := (hargs f hf y hy).isPlaced.span
    rcases List.mem_append.mp hf with hf | hf
    · obtain ⟨⟨hstart, hstop⟩, hbefore⟩ := hself.args_within f hf y hy
      have hstart : span.start.offset ≤ y.span.start.offset := hstart
      have hstop : y.span.stop ≤ span.stop := hstop
      exact ⟨hy'.within_trimGap hc hmoves (by omega) (by omega), hbefore⟩
    · obtain ⟨hstart, hstop⟩ := hnew f hf y hy
      refine ⟨hy'.within_trimGap hc hmoves ?_ (by omega), ?_⟩
      · have hself := hself.span.start_le_stop
        have hself : span.start.offset ≤ span.stop := hself
        omega
      · show token.span.stop ≤ y.span.start.offset
        omega
  · show (((filters ++ fs).flatMap FilterCall.args).map Expr.span).Pairwise Span.Before
    rw [List.flatMap_append, List.map_append]
    refine List.pairwise_append.mpr ⟨hself.args_ordered, hordered.pairwise, ?_⟩
    intro s hs t ht
    obtain ⟨y, hy, rfl⟩ := List.mem_map.mp hs
    obtain ⟨f, hf, hy⟩ := List.mem_flatMap.mp hy
    obtain ⟨⟨-, hstop⟩, -⟩ := hself.args_within f hf y hy
    obtain ⟨hstart, -⟩ := hordered.within t ht
    exact Nat.le_trans hstop (Nat.le_trans hhi hstart)

/-- The rules of the language put everything in its place. -/
theorem arranges_placed : Arranges source (fun x => [x.span]) (Expr.IsPlaced source) where
  plain kind children hc hmoves hbegins hends hchildren hordered := by
    rw [← List.map_eq_flatMap] at hordered
    exact ⟨isPlaced_plain hc hmoves hbegins hends hchildren hordered, inOrder_trimGap hmoves⟩
  text means hc hmoves hbegins hlast := by
    refine ⟨isPlaced_text (fits_over hc hmoves.rest hbegins.exists_cons hlast), Nat.le_refl _,
      Nat.le_add_right .., ?_⟩
    exact Nat.le_of_eq hmoves.offset_eq.symm
  filters := by
    intro inner c c₁ c₂ d taken x fs _ hc hx hspan _ _ hfs hordered hend hmoves hbegins hends
    have hfits := fits_trimGap hc hmoves hbegins hends
    simp only [← List.map_eq_flatMap] at hordered
    refine ⟨isPlaced_withFilters hc hx hspan hfs hordered hmoves hend hfits, ?_⟩
    obtain ⟨token, children, kind, filters, span⟩ := x
    exact inOrder_trimGap hmoves

section Inner

/-- What is read is placed, and lies where it was read. -/
def PlacesExpr (source : List Char) (p : Reader Expr) : Prop :=
  Places source p (fun x => [x.span]) (Expr.Placed source)

variable {inner : Reader Expr} (hinner : PlacesExpr source inner) (htakes : Takes inner)
include hinner htakes

theorem places_argument :
    Places source (argument inner) (fun a => [a.span]) (Argument.IsPlaced source) := by
  have hexpression := arranges_placed.expression hinner htakes
  intro c a d hc h
  obtain ⟨taken, htaken, hbegins, hends⟩ := argument_edges htakes h
  have hfits := fits_trimGap hc htaken hbegins hends
  cases argument_eq_some htakes h with
  | @keyed c₁ c₂ _ _ _ name value hkey _ hmoves hvalue htaken' =>
    obtain rfl := htaken.text_eq htaken'
    obtain ⟨front, hfront, hspan, hfirst, hlast⟩ := key_edges hkey
    have hkeyFits : name.span.Fits source := hspan ▸ fits_over hc hfront.rest hfirst.exists_cons hlast
    have hkeyStop : name.span.stop = c₁.position.offset := by rw [hspan, hfront.offset_eq]; rfl
    obtain ⟨hplaced, hlo, hself, hhi⟩ := hexpression _ _ _ ((hc.moves hfront).moves hmoves) hvalue
    have hhi : value.span.stop ≤ d.position.offset := hhi
    have hfront := hfront.offset_le
    have hnext := hmoves.offset_le
    refine ⟨⟨hfits, fun k hk => ?_, ?_, hplaced⟩, inOrder_trimGap htaken⟩
    · cases hk
      refine ⟨hkeyFits, hkeyFits.within_trimGap hc htaken ?_ (by omega), ?_⟩
      · rw [hspan]
        exact Nat.le_refl _
      · show name.span.stop ≤ value.span.start.offset
        omega
    · have hwithin := hplaced.self.span.within_trimGap hc htaken (by omega) hhi
      exact hwithin
  | bare hvalue htaken' =>
    obtain rfl := htaken.text_eq htaken'
    obtain ⟨hplaced, hlo, -, hhi⟩ := hexpression _ _ _ hc hvalue
    refine ⟨⟨hfits, fun k hk => ?_, ?_, hplaced⟩, inOrder_trimGap htaken⟩
    · cases hk
    · exact hplaced.self.span.within_trimGap hc htaken hlo hhi

end Inner

end Grammar

/-! ## Whole texts -/

/-- All places in what is read of a text are right: in a list of arguments, which stand one behind
the other, and in an expression. -/
theorem placed_of_read (source : String) :
    (∀ args, Argument.readList source = .ok args →
      (∀ a ∈ args, a.IsPlaced source.toList) ∧ (args.map Argument.span).Pairwise Span.Before) ∧
    ∀ e, Expr.read source = .ok e → e.Placed source.toList := by
  have hstart : (Cursor.mk source.toList .start).StandsIn source.toList := ⟨[], .nil _⟩
  constructor
  · intro args h
    obtain ⟨d, hread⟩ := readAll_eq_ok_iff.mp (Argument.readList_eq_ok_iff.mp h).1
    obtain ⟨c, tail, hrun, -, -, -⟩ := signature_eq_some hread
    obtain ⟨hplaced, hordered⟩ := hrun.places
      (places_argument (arranges_placed.expressionAt _) (takes_expressionAt _))
      (takes_argument (takes_expressionAt _)) hstart
    rw [← List.map_eq_flatMap] at hordered
    exact ⟨hplaced, hordered.pairwise⟩
  · intro e h
    exact arranges_placed.of_read h

/-- Keys and groups, filters with arguments, and a character of two bytes. -/
theorem placed_groups :
    (∃ args, Argument.readList "k='é',  (a|f(1) + [b])|g c" = .ok args ∧ args.length = 3 ∧
      (∀ a ∈ args, a.IsPlaced "k='é',  (a|f(1) + [b])|g c".toList) ∧
        (args.map Argument.span).Pairwise Span.Before) ∧
    ∃ e, Expr.read " ((x + 1)|f([2, 'é'])) | g + \x7bk: 3\x7d " = .ok e ∧
      e.Placed " ((x + 1)|f([2, 'é'])) | g + \x7bk: 3\x7d ".toList := by
  obtain ⟨args, hargs, hlength⟩ : ∃ args,
      Argument.readList "k='é',  (a|f(1) + [b])|g c" = .ok args ∧ args.length = 3 :=
    ⟨_, rfl, rfl⟩
  obtain ⟨e, he⟩ : ∃ e, Expr.read " ((x + 1)|f([2, 'é'])) | g + \x7bk: 3\x7d " = .ok e := ⟨_, rfl⟩
  exact ⟨⟨args, hargs, hlength, (placed_of_read _).1 args hargs⟩, e, he, (placed_of_read _).2 e he⟩

end TagTemplate
