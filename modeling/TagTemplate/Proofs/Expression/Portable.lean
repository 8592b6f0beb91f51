import TagTemplate.Proofs.Expression.Found
import TagTemplate.Proofs.Expression.Leaf

/-!
# Texts in other surroundings

What was found somewhere in a source can be written elsewhere: with anything behind it that ends it
there (`Follows`), it is read as the same thing, up to places. The reader of nested brackets may be
another one, so this is said of two readers at once: `Portable n others view p p'` says of the texts
shorter than `n` that `p` was seen to take that `p'` takes them too, in front of whatever follows.

There is one lemma for each rule of the grammar, from the inside out. What the rule has read is taken
apart, its parts are portable, and they are put together again in front of the new text: each part is
followed by the part behind it or by a bracket, a comma or a plus, and the last part by the new text.
The bound on the text is one greater outside a bracket than inside, which carries the induction.

> `portable_expressionAt`, `portable_argument`: expressions and arguments are portable.
-/

namespace TagTemplate

open Reader Grammar
open Lexeme (Gap Around MayHaveComma Begins Ends Delimited Framed Follows)

namespace Reader

variable {α γ : Type} {n : Nat} {others : List Char} {view : α → γ} {p p' : Reader α}
  {items : List (Item α)}

/-- Texts shorter than `n` that `p` takes somewhere are taken by `p'` in front of everything that
ends them, and what is read is the same seen through `view`. -/
def Portable (n : Nat) (others : List Char) (view : α → γ) (p p' : Reader α) : Prop :=
  ∀ text a, Found p text a → text.length < n → ∀ rest, Follows others text rest →
    Reads p' (text ++ rest) fun b r => view b = view a ∧ afterGap r = afterGap rest

/-! ## Items with symbols in front -/

theorem isGap_of_mem_separators {ch : Char} (h : ch ∈ [',', '+']) :
    Lexeme.isGap ch = false ∧ ch ∈ Lexeme.delimiters ∧ ch ≠ '(' := by
  simp only [List.mem_cons, List.not_mem_nil, or_false] at h
  rcases h with rfl | rfl <;> exact ⟨rfl, by simp [Lexeme.delimiters], by simp⟩

variable {ch : Char} (hch : ch ∈ [',', '+'])
include hch

/-- Over the gap in front of it, an item begins with its symbol. -/
theorem Item.exists_source {x : Item α} (h : Around [ch] x.lead) :
    ∃ after, Gap after ∧ afterGap x.source = ch :: (after ++ x.text) ∧
      ∀ rest, afterGap (x.source ++ rest) = afterGap x.source ++ rest := by
  obtain ⟨before, after, hbefore, hafter, hlead⟩ := h
  have hsource : ∀ rest, afterGap (x.source ++ rest) = ch :: (after ++ (x.text ++ rest)) := by
    intro rest
    rw [Item.source, hlead, List.append_assoc, List.append_assoc, afterGap_append hbefore,
      List.append_assoc]
    exact afterGap_cons (isGap_of_mem_separators hch).1 _
  have hself := hsource []
  rw [List.append_nil, List.append_nil] at hself
  refine ⟨after, hafter, hself, fun rest => ?_⟩
  rw [hself, hsource, List.cons_append, List.append_assoc]

/-- An item with a symbol in front may follow. -/
theorem follows_item {x : Item α} (h : Around [ch] x.lead) (hothers : ch ∉ others)
    (text rest : List Char) : Follows others text (x.source ++ rest) := by
  obtain ⟨before, after, hbefore, -, hlead⟩ := h
  obtain ⟨hgap, hdelimiter, hne⟩ := isGap_of_mem_separators hch
  have hsource : x.source ++ rest = before ++ ch :: (after ++ (x.text ++ rest)) := by
    rw [Item.source, hlead]
    simp only [List.append_assoc, List.cons_append, List.nil_append]
  rw [hsource]
  exact Lexeme.follows_gap_cons hbefore hdelimiter hgap hne hothers text _

/-- Portable items with symbols in front are read one by one. -/
theorem AllFound.series_around (h : AllFound (Around [ch]) p items) (hothers : ch ∉ others)
    (hframes : Frames p) (hp : Portable n others view p p') (hn : ∀ x ∈ items, x.text.length < n) :
    Series (do let _ ← symbol ch; let _ ← gap; p') view (fun x => view x.value) Item.source
      (fun x => afterGap x.source) afterGap (fun x => Follows others x.text) items where
  begins := by
    intro x hx
    obtain ⟨_, -, -, happend⟩ := Item.exists_source hch (h x hx).1
    exact happend
  nonempty := by
    intro x hx hnil
    exact (hframes (h x hx).2).ne_nil (List.append_eq_nil_iff.mp hnil).2
  follows := (List.pairwise_of_forall_mem_list fun x _ x' hx' rest =>
    follows_item hch (h x' hx').1 hothers x.text rest).isChain
  reads := by
    intro x hx rest hrest
    obtain ⟨after, hafter, hsource, -⟩ := Item.exists_source hch (h x hx).1
    rw [hsource, List.cons_append, List.append_assoc]
    refine Reads.symbol_bind (Reads.gap_bind fun _ => ?_)
    rw [afterGap_append hafter, (hframes (h x hx).2).afterGap_append]
    exact hp x.text x.value (h x hx).2 (hn x hx) rest hrest

end Reader

namespace Grammar

variable {c d : Cursor} {taken : List Char} {m k n : Nat}

/-! ## Frames -/

/-- A reader frames its texts if they begin and end like expressions. -/
theorem frames_of_begins {α : Type} {p : Reader α}
    (h : ∀ {c a d}, p.read? c = some (a, d) →
      ∃ taken, c.Moves taken d ∧ Begins taken ∧ Ends taken d.rest) : Frames p :=
  frames_of_edges fun hread => by
    obtain ⟨taken, hmoves, ⟨x, r, htaken, hx, -⟩, hends⟩ := h hread
    exact ⟨taken, hmoves, ⟨x, r, htaken, isGap_of_isBlank hx⟩, hends⟩

theorem edges_expressionAt {x : Expr} (h : (expressionAt m).read? c = some (x, d)) :
    ∃ taken, c.Moves taken d ∧ Begins taken ∧ Ends taken d.rest := by
  cases m with
  | zero => cases h
  | succ m =>
    rw [expressionAt_succ] at h
    exact expression_edges (takes_expressionAt m) h

theorem frames_expressionAt (m : Nat) : Frames (expressionAt m) :=
  frames_of_begins edges_expressionAt

theorem frames_expression (m : Nat) : Frames (expression (expressionAt m)) :=
  frames_of_begins (expression_edges (takes_expressionAt m))

theorem frames_operand (m : Nat) : Frames (operand (expressionAt m)) :=
  frames_of_begins (operand_edges (takes_expressionAt m))

theorem frames_dictItem (m : Nat) : Frames (dictItem (expressionAt m)) :=
  frames_of_begins fun hread => by
    obtain ⟨name, c₁, lead, c₂, value, hname, -, hmoves, hvalue, -⟩ := dictItem_eq_some hread
    obtain ⟨front, hfront, -, hbegins, -⟩ := dictKey_edges hname
    obtain ⟨back, hback, -, hends⟩ := edges_expressionAt hvalue
    exact ⟨_, hfront.trans (hmoves.trans hback), hbegins.append _, (hends.append _).append _⟩

/-- A filter begins with its bar. -/
theorem exists_bar {f : FilterCall Expr} (h : (filter (expressionAt m)).read? c = some (f, d)) :
    ∃ r, c.Moves ('|' :: r) d ∧ Ends ('|' :: r) d.rest := by
  obtain ⟨taken, hmoves, hends⟩ := ends_filter (takes_expressionAt m) h
  cases filter_eq_some h with
  | bare _ hbar _ hname _ _ hback =>
    have hall := hbar.trans (hname.trans hback)
    rw [hmoves.text_eq hall] at hends
    exact ⟨_, hall, hends⟩
  | args _ hbar _ hname _ _ hback hargs =>
    obtain ⟨middle, hargs⟩ := hargs.exists_moves (takes_expressionAt m)
    have hall := hbar.trans (hname.trans (hback.trans hargs))
    rw [hmoves.text_eq hall] at hends
    exact ⟨_, hall, hends⟩

theorem frames_filter (m : Nat) : Frames (filter (expressionAt m)) :=
  frames_of_edges fun hread => by
    obtain ⟨r, hmoves, hends⟩ := exists_bar hread
    exact ⟨_, hmoves, ⟨'|', r, rfl, rfl⟩, hends⟩

theorem exists_bar_of_found {f : FilterCall Expr} {text : List Char}
    (h : Found (filter (expressionAt m)) text f) : ∃ r, text = '|' :: r := by
  obtain ⟨c, d, taken, hread, hmoves, rfl⟩ := h
  obtain ⟨r, hmoves', -⟩ := exists_bar hread
  rw [hmoves.text_eq hmoves']
  exact trimGap_cons rfl r

/-- A filter may follow. -/
theorem follows_filter {x : Item (FilterCall Expr)} {others : List Char}
    (hx : Gap x.lead ∧ Found (filter (expressionAt m)) x.text x.value) (hothers : '|' ∉ others)
    (text rest : List Char) : Follows others text (x.source ++ rest) := by
  obtain ⟨r, hr⟩ := exists_bar_of_found hx.2
  rw [Item.source, hr, List.append_assoc]
  exact Lexeme.follows_gap_cons hx.1 (by decide) rfl (by decide) hothers text _

/-! ## Things in brackets -/

section Bracketed

variable {α γ : Type} {view : α → γ} {item item' : Reader α} {opening closing : Char} {as : List α}

/-- A closing bracket may follow, with a comma in front of it or without. -/
theorem follows_closing (hclosing : closing ∈ [')', ']', '\x7d']) {tail : List Char}
    (htail : MayHaveComma tail) (text rest : List Char) :
    Follows ['|', '+'] text (tail ++ closing :: rest) := by
  have hclosing' : closing ∈ Lexeme.delimiters ∧ Lexeme.isGap closing = false ∧
      closing ≠ '(' ∧ closing ∉ ['|', '+'] := by
    simp only [List.mem_cons, List.not_mem_nil, or_false] at hclosing
    rcases hclosing with rfl | rfl | rfl <;>
      exact ⟨by simp [Lexeme.delimiters], rfl, by simp, by simp⟩
  obtain ⟨hdelimiter, hgap, hne, hothers⟩ := hclosing'
  rcases htail with htail | ⟨before, after, hbefore, -, rfl⟩
  · exact Lexeme.follows_gap_cons htail hdelimiter hgap hne hothers text rest
  · rw [List.append_assoc, List.append_assoc, List.singleton_append]
    exact Lexeme.follows_gap_cons hbefore (by decide) rfl (by decide) (by decide) text _

/-- Things in brackets are read again, and nothing behind the closing bracket matters. -/
theorem Bracketed.reads (h : Bracketed opening closing item c as d) (hmoves : c.Moves taken d)
    (hn : taken.length ≤ n) (hclosing : closing ∈ [')', ']', '\x7d']) (htakes : Takes item)
    (hframes : Frames item) (hitem : Portable n ['|', '+'] view item item')
    (hnone : ∀ rest, Fails item' (closing :: rest)) (rest : List Char) :
    Reads (bracketed opening closing item') (taken ++ rest) fun bs r =>
      bs.map view = as.map view ∧ r = rest := by
  cases h with
  | @nil _ blanks hblanks hmoves' =>
    rw [hmoves.text_eq hmoves', List.cons_append, List.append_assoc, List.singleton_append]
    refine (reads_bracketed_nil hclosing hblanks (hnone rest)).mono fun bs r hbs => ?_
    rw [hbs.1]
    exact ⟨rfl, hbs.2⟩
  | @cons c₁ c₂ c₃ _ front tail a as hfront hopen hfirst hmore htail hclose =>
    obtain ⟨first, blanks, m, hfound, hfirst, hblanks, hmoves₁⟩ := exists_found hfirst htakes
    obtain ⟨items, back, m', rfl, hitems, hmoves₂, hback, hmoves₃⟩ :=
      hmore.exists_items htakes (fun hgap hlead => hlead.gap_append hgap) hblanks hmoves₁
    -- a gap behind the last item belongs to the tail
    have htail' : MayHaveComma (back ++ tail) :=
      htail.imp hback.append fun hcomma => hcomma.gap_append hback
    have htext : taken = opening :: (front ++ (first ++ (items.flatMap Item.source ++
        ((back ++ tail) ++ [closing])))) := by
      rw [hmoves.text_eq (hopen.trans (hfirst.trans (hmoves₂.trans (hmoves₃.trans hclose))))]
      simp only [List.append_assoc, List.cons_append]
    have hlength : first.length < n ∧ ∀ x ∈ items, x.text.length < n := by
      rw [htext] at hn
      simp only [List.length_cons, List.length_append, List.length_nil] at hn
      refine ⟨by omega, fun x hx => ?_⟩
      have hle := Item.length_text_le hx
      omega
    have hseries := hitems.series_around (by decide) (by decide) hframes hitem hlength.2
    have hfollows : Follows ['|', '+'] first
        (items.flatMap Item.source ++ ((back ++ tail) ++ closing :: rest)) :=
      forall_flatMap_append
        (fun x hx rest => follows_item (by decide) (hitems x hx).1 (by decide) first rest)
        (follows_closing hclosing htail' first rest)
    rw [htext]
    simp only [List.cons_append, List.append_assoc]
    rw [← List.append_assoc back tail]
    refine (reads_bracketed_of_series hclosing hfront (hframes hfound).afterGap_append
      (hitem first a hfound hlength.1 _ hfollows) hseries
      (fun x _ => follows_closing hclosing htail' x.text rest) htail' (hnone rest)).mono
      fun bs r hbs => ⟨?_, hbs.2⟩
    rw [hbs.1, List.map_cons, List.map_map]
    rfl

/-- So is what is made of them, whose token is the text from bracket to bracket. -/
theorem Bracketed.reads_plain {rule : Rule} {kind : Expr.Kind} {children : List α → List Expr}
    (hchildren : ∀ bs, bs.map view = as.map view →
      (children bs).map Expr.placeless = (children as).map Expr.placeless) (place : Position)
    {rest : List Char} (htakes : Takes (bracketed opening closing item'))
    (h : Reads (bracketed opening closing item') (taken ++ rest) fun bs r =>
      bs.map view = as.map view ∧ r = rest) :
    Reads (do
        let (items, start, source) ← located (named rule (bracketed opening closing item'))
        pure (Expr.plain (tokenOf start source) kind (children items)))
      (taken ++ rest) fun y r =>
        y.placeless = (Expr.plain (tokenOf place taken) kind (children as)).placeless ∧
          r = rest := by
  refine reads_located_bind htakes.named (Reads.named h) fun bs r start source hbs hsource => ?_
  obtain ⟨hbs, rfl⟩ := hbs
  obtain rfl := List.append_cancel_right hsource
  exact Reads.pure ⟨Expr.placeless_plain (bare_tokenOf rfl ..) (hchildren bs hbs), rfl⟩

end Bracketed

/-! ## The rules of the language -/

section Inner

variable {x : Expr} {rest : List Char}
  (h : Portable n ['|', '+'] Expr.placeless (expressionAt m) (expressionAt k))

theorem Primary.exists_concat (hprimary : Primary (expressionAt m) c x d) :
    ∃ taken, c.Moves taken d ∧ ∃ init last, taken = init ++ [last] ∧ Lexeme.isGap last = false := by
  cases hprimary with
  | @group _ _ _ front back _ _ hopen hinner _ hclose =>
    obtain ⟨body, hbody⟩ := (takes_expressionAt m).moves hinner
    refine ⟨_, hopen.trans (hbody.trans hclose), '(' :: front ++ (body ++ back), ')', ?_, rfl⟩
    simp only [List.append_assoc]
  | list hitems _ =>
    obtain ⟨middle, hmoves⟩ := hitems.exists_moves (takes_expressionAt m)
    exact ⟨_, hmoves, '[' :: middle, ']', rfl, rfl⟩
  | dict hentries _ =>
    obtain ⟨middle, hmoves⟩ := hentries.exists_moves (takes_dictItem (takes_expressionAt m))
    exact ⟨_, hmoves, '\x7b' :: middle, '\x7d', rfl, rfl⟩
  | literal hliteral hmoves =>
    obtain ⟨init, last, _, htrim, hlast, -⟩ := exists_concat_trimGap hliteral.ends
    rw [trimGap_of_noGap hliteral.noGap] at htrim
    exact ⟨_, hmoves, init, last, htrim, isGap_of_isBlank hlast⟩
  | text hstring hmoves =>
    obtain ⟨q, inside, hq, -, rfl⟩ := Lexeme.string?_eq_some hstring
    refine ⟨_, hmoves, q :: inside, q, rfl, ?_⟩
    rcases hq with rfl | rfl <;> rfl

theorem placeless_leaf (kind : Expr.Kind) (text : String) (span : Span) :
    (Expr.plain ⟨text, span⟩ kind []).placeless = .leaf kind text :=
  Expr.placeless_node ..

/-- An operand is a primary expression and its filters. -/
theorem exists_filters {text : List Char} (hfound : Found (operand (expressionAt m)) text x) :
    ∃ c d y first items span, Primary (expressionAt m) c y d ∧ c.Moves first d ∧
      AllFound Gap (filter (expressionAt m)) items ∧ text = first ++ items.flatMap Item.source ∧
      x = y.withFilters (items.map Item.value) span := by
  obtain ⟨c, d, taken, hread, hmoves, rfl⟩ := hfound
  obtain ⟨y, c₁, fs, c₂, blanks, _, hprimary, hfilters, hblanks, hmoves₁, -, rfl⟩ :=
    operand_eq_some (takes_expressionAt m) hread
  obtain ⟨first, hfirst, hends⟩ := hprimary.exists_concat
  obtain ⟨items, back, m', rfl, hitems, hmoves₂, hback, hmoves₃⟩ :=
    hfilters.exists_items (takes_filter (takes_expressionAt m)) Gap.append Lexeme.gap_nil (.nil c₁)
  refine ⟨c, c₁, y, first, items, _, hprimary, hfirst, hitems, ?_, rfl⟩
  rw [hmoves.text_eq (hfirst.trans (hmoves₂.trans (hmoves₃.trans hmoves₁))), ← List.append_assoc]
  exact trimGap_append_gap (ends_items hends hitems (frames_filter m)) (hback.append hblanks)

/-- An expression is its first operand and further ones with pluses in front, which make a sum if
there are any. -/
theorem exists_operands {text : List Char} (hfound : Found (expression (expressionAt m)) text x) :
    ∃ first y items, Found (operand (expressionAt m)) first y ∧
      AllFound (Around ['+']) (operand (expressionAt m)) items ∧
      text = first ++ items.flatMap Item.source ∧
      (items = [] ∧ x = y ∨ items ≠ [] ∧ ∃ place taken, trimGap taken = text ∧
        x = .plain (tokenOf place taken) .sum (y :: items.map Item.value)) := by
  obtain ⟨c, d, taken, hread, hmoves, rfl⟩ := hfound
  have htakes := takes_operand (takes_expressionAt m)
  cases expression_eq_some (takes_expressionAt m) hread with
  | single hone hback hmoves₁ =>
    obtain ⟨first, blanks, m', hfirst, hmoves₂, hblanks, hmoves₃⟩ := exists_found hone htakes
    refine ⟨first, x, [], hfirst, fun _ hx => absurd hx List.not_mem_nil, ?_, Or.inl ⟨rfl, rfl⟩⟩
    rw [hmoves.text_eq (hmoves₂.trans (hmoves₃.trans hmoves₁)), List.flatMap_nil, List.append_nil]
    exact trimGap_append_gap (frames_operand m hfirst).ends (hblanks.append hback)
  | sum hone hmore hback hmoves₁ htaken =>
    obtain ⟨first, blanks, m', hfirst, hmoves₂, hblanks, hmoves₃⟩ := exists_found hone htakes
    obtain ⟨items, back, m'', hvalues, hitems, hmoves₄, hback', hmoves₅⟩ :=
      hmore.exists_items htakes (fun hgap hlead => hlead.gap_append hgap) hblanks hmoves₃
    obtain rfl := hmoves.text_eq htaken
    refine ⟨first, _, items, hfirst, hitems, ?_, Or.inr ⟨?_, c.position, taken, rfl, ?_⟩⟩
    · rw [hmoves.text_eq (hmoves₂.trans (hmoves₄.trans (hmoves₅.trans hmoves₁))),
        ← List.append_assoc]
      exact trimGap_append_gap (ends_items (frames_operand m hfirst).ends hitems (frames_operand m))
        (hback'.append hback)
    · rintro rfl
      cases hvalues
    · rw [hvalues]

include h

theorem portable_dictItem : Portable n ['|', '+'] (List.map Expr.placeless)
    (dictItem (expressionAt m)) (dictItem (expressionAt k)) := by
  intro text entry hfound hn rest hrest
  obtain ⟨c, d, taken, hread, hmoves, rfl⟩ := hfound
  obtain ⟨name, c₁, lead, c₂, value, hname, hlead, hmoves₁, hvalue, rfl⟩ := dictItem_eq_some hread
  obtain ⟨front, hnamed, hfront, -⟩ := dictKey_eq_some hname
  obtain ⟨back, hback, htext⟩ := exists_found_last (takes_expressionAt m) (frames_expressionAt m)
    hvalue (hfront.trans hmoves₁) hmoves
  rw [htext] at hn hrest ⊢
  rw [List.length_append] at hn
  rw [List.append_assoc, List.append_assoc]
  have hvalue := h back value hback (by omega) rest hrest.of_append
  refine Reads.named ((reads_dictKey hnamed (Lexeme.delimited_around hlead (by decide) _)).bind
    fun token r htoken => ?_)
  rw [htoken.2]
  refine reads_around_bind hlead rfl ((frames_expressionAt m hback).afterGap_append rest)
    (hvalue.bind fun e r he => Reads.pure ⟨?_, he.2⟩)
  have hkey : (Expr.plain token .text []).placeless = (Expr.plain name .text []).placeless :=
    Expr.placeless_plain (congrArg (Token.mk · .none) htoken.1) rfl
  simp only [List.map_cons, List.map_nil, hkey, he.1]

/-- What was found is read between parentheses, and nothing behind them matters. -/
theorem reads_group_of_found {text front back : List Char} (hfound : Found (expressionAt m) text x)
    (hn : text.length < n) (hfront : Gap front) (hback : Gap back) (rest : List Char) :
    Reads (primary (expressionAt k)) ('(' :: (front ++ (text ++ (back ++ ')' :: rest)))) fun y r =>
      y.placeless = x.placeless ∧ r = rest := by
  have hfollows : Follows ['|', '+'] text (back ++ ')' :: rest) :=
    follows_closing (by decide) (Or.inl hback) text rest
  exact Reads.left (reads_group_of_inner hfront (frames_expressionAt m hfound).afterGap_append
    hback (h text x hfound hn _ hfollows))

theorem Primary.reads (hprimary : Primary (expressionAt m) c x d) (hmoves : c.Moves taken d)
    (hn : taken.length ≤ n) (hrest : Delimited rest) :
    Reads (primary (expressionAt k)) (taken ++ rest) fun y r =>
      y.placeless = x.placeless ∧ r = rest := by
  cases hprimary with
  | @group _ _ _ front back _ hfront hopen hinner hback hclose =>
    obtain ⟨text, blanks, m', hfound, htext, hblanks, hmoves₁⟩ :=
      exists_found hinner (takes_expressionAt m)
    have htaken : taken = '(' :: (front ++ (text ++ ((blanks ++ back) ++ [')']))) := by
      rw [hmoves.text_eq (hopen.trans (htext.trans (hmoves₁.trans hclose)))]
      simp only [List.append_assoc, List.cons_append]
    have hlength : text.length < n := by
      rw [htaken] at hn
      simp only [List.length_cons, List.length_append] at hn
      omega
    rw [htaken]
    simp only [List.append_assoc, List.cons_append]
    rw [← List.append_assoc blanks back]
    exact reads_group_of_found h hfound hlength hfront (hblanks.append hback) rest
  | list hitems hmoves' =>
    obtain rfl := hmoves.text_eq hmoves'
    obtain ⟨middle, hbrackets⟩ := hitems.exists_moves (takes_expressionAt m)
    have hreads := hitems.reads hmoves hn (by decide) (takes_expressionAt m) (frames_expressionAt m)
      h (fun _ => fails_expressionAt k (by simp)) rest
    have hgroup : Fails (Grammar.group (expressionAt k)) (taken ++ rest) := by
      rw [hmoves.text_eq hbrackets]
      exact fails_group fun r heq => absurd (List.cons.inj heq).1 (by decide)
    refine Reads.right hgroup (Reads.left ?_)
    exact Bracketed.reads_plain (fun _ hbs => hbs) c.position
      (takes_bracketed (by decide) (by decide) (takes_expressionAt k)) hreads
  | @dict _ _ entries hentries hmoves' =>
    obtain rfl := hmoves.text_eq hmoves'
    obtain ⟨middle, hbrackets⟩ := hentries.exists_moves (takes_dictItem (takes_expressionAt m))
    have hreads := hentries.reads hmoves hn (by decide) (takes_dictItem (takes_expressionAt m))
      (frames_dictItem m) (portable_dictItem h) fails_dictItem rest
    have hother : Fails (Grammar.group (expressionAt k)) (taken ++ rest) ∧
        Fails (Grammar.list (expressionAt k)) (taken ++ rest) := by
      rw [hmoves.text_eq hbrackets]
      exact ⟨fails_group fun r heq => absurd (List.cons.inj heq).1 (by decide),
        fails_list fun r heq => absurd (List.cons.inj heq).1 (by decide)⟩
    refine Reads.right hother.1 (Reads.right hother.2 (Reads.left ?_))
    refine Bracketed.reads_plain (fun bs hbs => ?_) c.position
      (takes_bracketed (by decide) (by decide) (takes_dictItem (takes_expressionAt k))) hreads
    rw [List.map_flatten, List.map_flatten, hbs]
  | literal hliteral hmoves' =>
    obtain rfl := hmoves.text_eq hmoves'
    refine (hliteral.reads hrest).mono fun y r hy => ?_
    obtain ⟨hleaf, hr⟩ := placeless_of_isLeaf hy
    rw [hleaf, tokenOf, placeless_leaf, trimGap_of_noGap hliteral.noGap]
    exact ⟨rfl, hr⟩
  | text hstring hmoves' =>
    obtain rfl := hmoves.text_eq hmoves'
    refine (Lexeme.reads_of_string? hstring).mono fun y r hy => ?_
    obtain ⟨hleaf, hr⟩ := placeless_of_isLeaf hy
    rw [hleaf, placeless_leaf]
    exact ⟨rfl, hr⟩

theorem portable_filter : Portable (n + 1) [] FilterCall.placeless (filter (expressionAt m))
    (filter (expressionAt k)) := by
  intro text f hfound hn rest hrest
  obtain ⟨c, d, taken, hread, hmoves, rfl⟩ := hfound
  cases filter_eq_some hread with
  | @bare c₁ c₂ _ front name back token span hfront hbar hsplit hname htoken hback hmoves₁ =>
    obtain ⟨⟨a, r, hne, -⟩, hsolid, -⟩ := Lexeme.name?_eq_some hsplit
    obtain ⟨init, last, hlast, hblank⟩ := hsolid.exists_concat (hne ▸ List.cons_ne_nil a r)
    have htext : trimGap taken = '|' :: (front ++ name) := by
      rw [hmoves.text_eq ((hbar.trans hname).trans hmoves₁)]
      refine trimGap_append_gap ⟨'|' :: (front ++ init), last, ?_, isGap_of_isBlank hblank⟩
        hback
      rw [hlast, List.cons_append, List.cons_append, List.append_assoc]
    have halone := Lexeme.name?_taken hsplit
    rw [htext] at hrest ⊢
    -- what follows is not taken for arguments
    have hnone : ∀ r, afterGap rest ≠ '(' :: r :=
      hrest.noArguments ⟨[], front, name, rfl, hfront, halone⟩
    rw [List.cons_append, List.append_assoc]
    refine reads_filter_of_parts hfront halone hrest.delimited (Reads.optional_none
      (Fails.named (fails_bracketed hnone)) fun token' span' htoken' => ⟨?_, afterGap_afterGap rest⟩)
    rw [FilterCall.placeless, FilterCall.placeless, Token.bare, Token.bare, htoken, htoken']
    rfl
  | @args c₁ c₂ c₃ _ front name back token args span hfront hbar hsplit hname htoken hback hmoves₁
      hargs =>
    obtain ⟨middle, hbrackets⟩ := hargs.exists_moves (takes_expressionAt m)
    have htext : trimGap taken =
        '|' :: (front ++ (name ++ (back ++ '(' :: (middle ++ [')'])))) := by
      rw [hmoves.text_eq (hbar.trans (hname.trans (hmoves₁.trans hbrackets)))]
      have hconcat : '|' :: front ++ (name ++ (back ++ ('(' :: (middle ++ [')'])))) =
          ('|' :: (front ++ (name ++ (back ++ '(' :: middle)))) ++ [')'] := by
        simp only [List.append_assoc, List.cons_append]
      rw [hconcat, trimGap_concat rfl, ← hconcat, List.cons_append]
    rw [htext] at hn ⊢
    have hlength : ('(' :: (middle ++ [')'])).length ≤ n := by
      simp only [List.length_cons, List.length_append] at hn ⊢
      omega
    have hreads := hargs.reads hbrackets hlength (by decide) (takes_expressionAt m)
      (frames_expressionAt m) h (fun _ => fails_expressionAt k (by simp)) rest
    rw [List.cons_append, List.append_assoc, List.append_assoc, List.append_assoc]
    refine reads_filter_of_parts hfront (Lexeme.name?_taken hsplit)
      (Lexeme.delimited_gap_append hback (Lexeme.delimited_cons (by decide) _)) ?_
    rw [afterGap_append hback, List.cons_append, afterGap_cons rfl]
    refine Reads.optional (Reads.named (hreads.mono fun bs r hbs token' span' htoken' => ?_))
    rw [FilterCall.placeless, FilterCall.placeless, Token.bare, Token.bare, htoken, htoken', hbs.2]
    exact ⟨congrArg (FilterCall.mk _ · _) hbs.1, rfl⟩

/-- Filters are read one by one. -/
theorem series_filters {items : List (Item (FilterCall Expr))}
    (hitems : AllFound Gap (filter (expressionAt m)) items)
    (hn : ∀ x ∈ items, x.text.length < n + 1) :
    Series (filter (expressionAt k)) FilterCall.placeless (fun x => x.value.placeless) Item.source
      Item.text afterGap (fun x => Follows [] x.text) items where
  begins := by
    intro x hx rest
    rw [Item.source, List.append_assoc, afterGap_append (hitems x hx).1,
      (frames_filter m (hitems x hx).2).afterGap_append]
  nonempty := by
    intro x hx hnil
    exact (frames_filter m (hitems x hx).2).ne_nil (List.append_eq_nil_iff.mp hnil).2
  follows := (List.pairwise_of_forall_mem_list fun x _ x' hx' rest =>
    follows_filter (hitems x' hx') (by decide) x.text rest).isChain
  reads := fun x hx rest hrest =>
    portable_filter h x.text x.value (hitems x hx).2 (hn x hx) rest hrest

/-- Behind a primary expression, found filters are read as its filters. -/
theorem reads_operand_of_found {items : List (Item (FilterCall Expr))} {first : List Char}
    (hprimary : ∀ rest, Delimited rest → Reads (primary (expressionAt k)) (first ++ rest) fun y r =>
      y.placeless = x.placeless ∧ r = rest)
    (hitems : AllFound Gap (filter (expressionAt m)) items)
    (hn : (items.flatMap Item.source).length < n + 1)
    (hrest : Follows ['|'] (first ++ items.flatMap Item.source) rest) :
    Reads (operand (expressionAt k)) (first ++ (items.flatMap Item.source ++ rest)) fun y r =>
      y.placeless = x.placeless.withFilters (items.map fun x => x.value.placeless) .none ∧
        afterGap r = afterGap rest := by
  have hlength : ∀ x ∈ items, x.text.length < n + 1 := by
    intro x hx
    have hle := Item.length_text_le hx
    omega
  have hdelimited : Delimited (items.flatMap Item.source ++ rest) := by
    refine forall_flatMap_append (fun x hx rest => ?_) hrest.delimited
    exact (follows_filter (hitems x hx) List.not_mem_nil [] rest).delimited
  -- the last filter stands at the end of the text
  have hlast : ∀ x ∈ items.getLast?, Follows [] x.text rest := by
    intro x hx
    obtain ⟨front, hfront⟩ := exists_append_last hx first
    rw [hfront] at hrest
    exact hrest.of_append.mono fun _ hc => absurd hc List.not_mem_nil
  refine reads_operand_of_parts (hprimary _ hdelimited) fun e r he => ?_
  obtain ⟨he, rfl⟩ := he
  refine (reads_filters (series_filters h hitems hlength) hlast
    (hrest.ne_cons (List.mem_singleton_self _))).mono fun o r ho span' => ⟨?_, ho.2⟩
  rw [Expr.placeless_withFilters, he, ho.1]

theorem portable_operand : Portable (n + 1) ['|'] Expr.placeless (operand (expressionAt m))
    (operand (expressionAt k)) := by
  intro text x hfound hn rest hrest
  obtain ⟨c, d, y, first, items, span, hprimary, hfirst, hitems, rfl, rfl⟩ := exists_filters hfound
  rw [List.length_append] at hn
  rw [List.append_assoc]
  refine (reads_operand_of_found h (fun rest hrest => hprimary.reads h hfirst (by omega) hrest)
    hitems (by omega) hrest).mono fun e r he => ⟨?_, he.2⟩
  rw [Expr.placeless_withFilters, he.1, List.map_map]
  rfl

theorem portable_expression : Portable (n + 1) ['|', '+'] Expr.placeless
    (expression (expressionAt m)) (expression (expressionAt k)) := by
  intro text x hfound hn rest hrest
  obtain ⟨first, y, items, hfirst, hitems, rfl, hx⟩ := exists_operands hfound
  have hends := ends_items (frames_operand m hfirst).ends hitems (frames_operand m)
  rw [List.length_append] at hn
  have hlength : ∀ x ∈ items, x.text.length < n + 1 := by
    intro x hx
    have hle := Item.length_text_le hx
    omega
  have hseries := hitems.series_around (by decide) (by decide) (frames_operand m)
    (portable_operand h) hlength
  have hfollows : Follows ['|'] first (items.flatMap Item.source ++ rest) ∧
      ∀ x ∈ items.getLast?, Follows ['|'] x.text rest := by
    have hbar : ∀ {front text}, first ++ items.flatMap Item.source = front ++ text →
        Follows ['|'] text rest := by
      intro front text heq
      rw [heq] at hrest
      exact hrest.of_append.mono fun c hc => List.mem_append_left ['+'] hc
    refine ⟨?_, fun x hx => ?_⟩
    · cases items with
      | nil => exact hbar (show first ++ [] = [] ++ first from List.append_nil first)
      | cons x items =>
        rw [List.flatMap_cons, List.append_assoc]
        exact follows_item (by decide) (hitems x (List.mem_cons_self ..)).1 (by decide) first _
    · obtain ⟨front, hfront⟩ := exists_append_last hx first
      exact hbar hfront
  rw [List.append_assoc]
  refine (reads_expression_of_series (takes_expressionAt k)
    (portable_operand h first y hfirst (by omega) _ hfollows.1) hseries hfollows.2
    (hrest.ne_cons (by decide))).mono fun e r he => ⟨?_, he.2⟩
  obtain ⟨hsummed, hend⟩ := he
  generalize hy : y.placeless = z at hsummed
  generalize hz : (items.map fun x => x.value.placeless) = zs at hsummed
  cases hsummed with
  | single =>
    obtain rfl := List.map_eq_nil_iff.mp hz
    obtain ⟨-, rfl⟩ | ⟨hne, -⟩ := hx
    · exact hy.symm
    · exact absurd rfl hne
  | @sum e second more taken place htaken =>
    obtain ⟨rfl, -⟩ | ⟨-, place', taken', htaken', rfl⟩ := hx
    · cases hz
    · rw [← List.append_assoc] at htaken
      have hsource := trimGap_eq_of_afterGap hends htaken hend
      refine Expr.placeless_plain (bare_tokenOf (hsource.trans htaken'.symm) ..) ?_
      show e.placeless :: (second :: more).map Expr.placeless =
        y.placeless :: (items.map Item.value).map Expr.placeless
      rw [← hz, hy, List.map_map]
      rfl

omit h in
/-- A primary expression in front of no equals sign is no key. -/
theorem Primary.noKey (hprimary : Primary (expressionAt m) c x d) (hmoves : c.Moves taken d)
    (hrest : Delimited rest) (hequals : ∀ s, afterGap rest ≠ '=' :: s) : NoKey (taken ++ rest) := by
  cases hprimary with
  | group _ hopen hinner _ hclose =>
    obtain ⟨body, hbody⟩ := (takes_expressionAt m).moves hinner
    rw [hmoves.text_eq (hopen.trans (hbody.trans hclose))]
    exact Or.inl (fails_key (by decide) (by decide) rfl _)
  | list hitems _ =>
    obtain ⟨middle, hbrackets⟩ := hitems.exists_moves (takes_expressionAt m)
    rw [hmoves.text_eq hbrackets]
    exact Or.inl (fails_key (by decide) (by decide) rfl _)
  | dict hentries _ =>
    obtain ⟨middle, hbrackets⟩ := hentries.exists_moves (takes_dictItem (takes_expressionAt m))
    rw [hmoves.text_eq hbrackets]
    exact Or.inl (fails_key (by decide) (by decide) rfl _)
  | literal hliteral hmoves' =>
    obtain rfl := hmoves.text_eq hmoves'
    exact hliteral.noKey hrest hequals
  | text hstring hmoves' =>
    obtain rfl := hmoves.text_eq hmoves'
    obtain ⟨q, inside, hq, hinside, rfl⟩ := Lexeme.string?_eq_some hstring
    exact noKey_string hq hinside hequals

omit h in
/-- An expression in front of no equals sign is no key, since its first operand is none: what stands
behind that operand is a bar, a plus or what stands behind the expression. -/
theorem noKey_of_found {text : List Char} (hfound : Found (expression (expressionAt m)) text x)
    (hrest : Delimited rest) (hequals : ∀ s, afterGap rest ≠ '=' :: s) : NoKey (text ++ rest) := by
  obtain ⟨first, y, items, hfirst, hitems, rfl, -⟩ := exists_operands hfound
  obtain ⟨c, d, z, front, filters, _, hprimary, hfront, hfilters, rfl, -⟩ := exists_filters hfirst
  have hmore : Follows ['='] [] (items.flatMap Item.source ++ rest) :=
    forall_flatMap_append
      (fun x hx rest => follows_item (by decide) (hitems x hx).1 (by decide) [] rest)
      (Lexeme.follows_nil hrest hequals)
  have htail : Follows ['='] []
      (filters.flatMap Item.source ++ (items.flatMap Item.source ++ rest)) :=
    forall_flatMap_append (fun x hx rest => follows_filter (hfilters x hx) (by decide) [] rest)
      hmore
  rw [List.append_assoc, List.append_assoc]
  exact hprimary.noKey hfront htail.delimited (htail.ne_cons (by decide))

theorem portable_argument : Portable (n + 1) ['|', '+', '='] Argument.placeless
    (argument (expressionAt m)) (argument (expressionAt k)) := by
  intro text a hfound hn rest hrest
  obtain ⟨c, d, taken, hread, hmoves, rfl⟩ := hfound
  have hexpression : ∀ {front text x}, Found (expression (expressionAt m)) text x →
      trimGap taken = front ++ text →
        Reads (expression (expressionAt k)) (text ++ rest) fun e r =>
          e.placeless = x.placeless ∧ afterGap r = afterGap rest := by
    intro front text x hfound htext
    rw [htext] at hn hrest
    rw [List.length_append] at hn
    exact portable_expression h text x hfound (by omega) rest
      (hrest.of_append.mono fun c hc => List.mem_append_left ['='] hc)
  have hframes : Frames (expression (expressionAt m)) := frames_expression m
  have htakes := takes_expression (takes_expressionAt m)
  cases argument_eq_some (takes_expressionAt m) hread with
  | @keyed c₁ c₂ _ lead _ name value hkey hlead hmoves₁ hvalue _ =>
    obtain ⟨front, hnamed, hfront, -⟩ := key_eq_some hkey
    obtain ⟨back, hback, htext⟩ :=
      exists_found_last htakes hframes hvalue (hfront.trans hmoves₁) hmoves
    have hvalue := hexpression hback htext
    rw [htext, List.append_assoc, List.append_assoc]
    refine reads_argument_of_parts (Reads.left ?_)
    refine (reads_key hnamed (Lexeme.delimited_around hlead (by decide) _)).bind
      fun token r htoken => ?_
    rw [htoken.2]
    refine reads_around_bind hlead rfl ((hframes hback).afterGap_append rest)
      (hvalue.bind fun e r he => Reads.pure fun span => ⟨?_, he.2⟩)
    rw [Argument.placeless, Argument.placeless, he.1, Option.map_some, Option.map_some, Token.bare,
      Token.bare, htoken.1]
  | @bare _ _ value hvalue _ =>
    have hfound : Found (expression (expressionAt m)) (trimGap taken) value :=
      ⟨c, d, taken, hvalue, hmoves, rfl⟩
    have hkey := noKey_of_found hfound hrest.delimited (hrest.ne_cons (by decide))
    refine reads_argument_of_parts (Reads.right hkey.fails ?_)
    refine (hexpression hfound (List.nil_append _).symm).bind fun e r he =>
      Reads.pure fun span => ⟨?_, he.2⟩
    rw [Argument.placeless, Argument.placeless, he.1]

end Inner

/-- What was found as an expression is read as that expression in any other place by every reader that
can open as many brackets as its text has characters. -/
theorem portable_expressionAt {m k n : Nat} (h : n ≤ k) :
    Portable n ['|', '+'] Expr.placeless (expressionAt m) (expressionAt k) := by
  induction n generalizing m k with
  | zero =>
    intro text x _ hn
    omega
  | succ n ih =>
    obtain ⟨k, rfl⟩ := Nat.exists_eq_add_of_lt h
    cases m with
    | zero =>
      intro text x hfound
      obtain ⟨c, d, taken, hread, -⟩ := hfound
      cases hread
    | succ m =>
      rw [expressionAt_succ, expressionAt_succ]
      exact portable_expression (ih (by omega))

end Grammar

end TagTemplate
