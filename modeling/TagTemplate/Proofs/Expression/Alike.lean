import TagTemplate.Proofs.Expression.Advances
import TagTemplate.Proofs.Expression.Print

/-!
# A text reads the same wherever it stands

What a reader makes of a text depends on where the text begins only through the places that it
writes down; on a gap behind the text only in that it may take some of it, when nothing else is left;
and on the bound on nested brackets not at all, as long as the bound is larger than the text. All
this is said at once by `Alike n view p q`: of a text shorter than `n`, `p` takes the same as `q`
takes of this text with a gap behind it, from any two places, and they read what is the same seen
through `view`. The bound is one greater inside a bracket than outside, and the text is at least one
character shorter there (`Alike.symbol_bind`); this is what carries the induction.

> `alike_expressionAt`: any two bounds that are large enough read the same expression, up to its
> places.

So gaps around an argument list do not matter (`Argument.readList_between`).
-/

namespace TagTemplate

/-! ## Expressions without places -/

mutual

/-- The expression with its tokens and without places. -/
def Expr.placeless : Expr → Expr
  | .node token children kind filters _ =>
    .node token.bare (Expr.placelessAll children) kind (Expr.placelessFilters filters) .none

/-- The expressions with their tokens and without places. -/
def Expr.placelessAll : List Expr → List Expr
  | [] => []
  | e :: rest => e.placeless :: Expr.placelessAll rest

/-- The filters with their tokens and without places. -/
def Expr.placelessFilters : List (FilterCall Expr) → List (FilterCall Expr)
  | [] => []
  | ⟨name, args, _⟩ :: rest =>
    ⟨name.bare, Expr.placelessAll args, .none⟩ :: Expr.placelessFilters rest

end

/-- The filter without places. -/
def FilterCall.placeless (f : FilterCall Expr) : FilterCall Expr :=
  ⟨f.name.bare, f.args.map Expr.placeless, .none⟩

/-- The argument without places. -/
def Argument.placeless (a : Argument) : Argument :=
  ⟨a.key.map Token.bare, a.value.placeless, .none⟩

namespace Expr

theorem placelessAll_eq_map (es : List Expr) : placelessAll es = es.map placeless := by
  induction es with
  | nil => rfl
  | cons e rest ih => rw [placelessAll, ih, List.map_cons]

theorem placelessFilters_eq_map (filters : List (FilterCall Expr)) :
    placelessFilters filters = filters.map FilterCall.placeless := by
  induction filters with
  | nil => rfl
  | cons f rest ih =>
    rw [placelessFilters, ih, placelessAll_eq_map]
    rfl

theorem placeless_node (token : Token) (children : List Expr) (kind : Kind)
    (filters : List (FilterCall Expr)) (span : Span) :
    (node token children kind filters span).placeless =
      node token.bare (children.map placeless) kind (filters.map FilterCall.placeless) .none := by
  rw [placeless, placelessAll_eq_map, placelessFilters_eq_map]

theorem placeless_withFilters (added : List (FilterCall Expr)) (span : Span) (e : Expr) :
    (e.withFilters added span).placeless =
      e.placeless.withFilters (added.map FilterCall.placeless) .none := by
  obtain ⟨token, children, kind, filters, place⟩ := e
  rw [withFilters, placeless_node, placeless_node, withFilters, List.map_append]

theorem placeless_plain {token token' : Token} {kind : Kind} {children children' : List Expr}
    (htoken : token.bare = token'.bare)
    (hchildren : children.map placeless = children'.map placeless) :
    (plain token kind children).placeless = (plain token' kind children').placeless := by
  rw [plain, plain, placeless_node, placeless_node, htoken, hchildren]

end Expr

namespace Reader

open Lexeme (TakesQuoted StopsBefore)

variable {α β γ δ : Type} {n : Nat} {p q : Reader α} {view : α → γ}

/-! ## Two readings of one text -/

/-- Two outcomes of reading a text `cs`, where for the second the gap `blanks` stands behind it: both
fail, or both leave the same of the text and read what is the same seen through `view`. The second
may have taken some of the gap if nothing is left of the text. -/
inductive SameReading (view : α → γ) (cs blanks : List Char) :
    Option (α × Cursor) → Option (α × Cursor) → Prop
  | none : SameReading view cs blanks none none
  | some {a b : α} {rest taken left : List Char} {place place' : Position} (hview : view a = view b)
      (hrest : rest.length ≤ cs.length) (hblanks : blanks = taken ++ left)
      (htaken : taken = [] ∨ rest = []) :
      SameReading view cs blanks (some (a, ⟨rest, place⟩)) (some (b, ⟨rest ++ left, place'⟩))

/-- The readers read the same of every text shorter than `n`, whatever place the text has for each
of them and whatever gap stands behind it for the second. -/
def Alike (n : Nat) (view : α → γ) (p q : Reader α) : Prop :=
  ∀ cs blanks place place', cs.length < n → (∀ c ∈ blanks, Lexeme.isGap c = true) →
    SameReading view cs blanks (p.read? ⟨cs, place⟩) (q.read? ⟨cs ++ blanks, place'⟩)

theorem Alike.pure {a b : α} (h : view a = view b) : Alike n view (pure a) (pure b) := by
  intro cs blanks place place' _ _
  rw [read?_pure, read?_pure]
  exact .some h (Nat.le_refl _) (List.nil_append _).symm (Or.inl rfl)

theorem Alike.bind {f g : α → Reader β} {view' : β → δ} (h : Alike n view p q)
    (hfg : ∀ a b, view a = view b → Alike n view' (f a) (g b)) :
    Alike n view' (p >>= f) (q >>= g) := by
  intro cs blanks place place' hcs hblanks
  have hsame := h cs blanks place place' hcs hblanks
  rw [read?_bind, read?_bind]
  generalize p.read? ⟨cs, place⟩ = x, q.read? ⟨cs ++ blanks, place'⟩ = y at hsame
  cases hsame with
  | none => exact .none
  | @some a b rest taken left d d' hview hrest hsplit htaken =>
    subst hsplit
    have hleft := (List.forall_mem_append.mp hblanks).2
    have hnext := hfg a b hview rest left d d' (by omega) hleft
    simp only [Option.bind_some]
    generalize (f a).read? ⟨rest, d⟩ = x, (g b).read? ⟨rest ++ left, d'⟩ = y at hnext
    cases hnext with
    | none => exact .none
    | @some _ _ rest' taken' left' _ _ hview' hrest' hsplit' htaken' =>
      have hsplit : taken ++ left = (taken ++ taken') ++ left' := by
        rw [hsplit', List.append_assoc]
      refine .some hview' (by omega) hsplit ?_
      rcases htaken with rfl | rfl
      · exact htaken'
      · exact Or.inr (List.eq_nil_of_length_eq_zero (Nat.le_zero.mp hrest'))

/-- Goes on with what does not depend on what was read. -/
theorem Alike.next {p' q' : Reader β} {view' : β → δ} (h : Alike n view p q)
    (h' : Alike n view' p' q') : Alike n view' (p >>= fun _ => p') (q >>= fun _ => q') :=
  h.bind fun _ _ _ => h'

theorem Alike.map {f : α → β} {view' : β → δ} (h : Alike n view p q)
    (hf : ∀ a b, view a = view b → view' (f a) = view' (f b)) :
    Alike n view' (f <$> p) (f <$> q) := by
  intro cs blanks place place' hcs hblanks
  have hsame := h cs blanks place place' hcs hblanks
  rw [read?_map, read?_map]
  generalize p.read? ⟨cs, place⟩ = x, q.read? ⟨cs ++ blanks, place'⟩ = y at hsame
  cases hsame with
  | none => exact .none
  | some hview hrest hsplit htaken => exact .some (hf _ _ hview) hrest hsplit htaken

theorem Alike.orElse {p' q' : Reader α} (h : Alike n view p q) (h' : Alike n view p' q') :
    Alike n view (p <|> p') (q <|> q') := by
  intro cs blanks place place' hcs hblanks
  have hsame := h cs blanks place place' hcs hblanks
  have hsame' := h' cs blanks place place' hcs hblanks
  rw [read?_orElse, read?_orElse]
  generalize p.read? ⟨cs, place⟩ = x, q.read? ⟨cs ++ blanks, place'⟩ = y at hsame
  cases hsame with
  | none => exact hsame'
  | some hview hrest hsplit htaken => exact .some hview hrest hsplit htaken

theorem Alike.optional (h : Alike n view p q) :
    Alike n (Option.map view) (optional p) (optional q) :=
  Alike.orElse (h.map fun _ _ hview => congrArg some hview) (.pure rfl)

theorem Alike.upTo (h : Alike n view p q) (k : Nat) :
    Alike n (List.map view) (p.upTo k) (q.upTo k) := by
  induction k with
  | zero => exact .pure rfl
  | succ k ih =>
    refine Alike.orElse (h.bind fun a b hview => ih.bind fun as bs hviews => .pure ?_) (.pure rfl)
    rw [List.map_cons, List.map_cons, hview, hviews]

/-- The longer text allows more rounds, which are not used. -/
theorem Alike.many (h : Alike n view p q) (hp : Advances p) :
    Alike n (List.map view) (many p) (many q) := by
  intro cs blanks place place' hcs hblanks
  have hrounds : (p.upTo (cs.length + 1)).read? ⟨cs, place⟩ =
      (p.upTo ((cs ++ blanks).length + 1)).read? ⟨cs, place⟩ := by
    refine read?_upTo_of_advances hp (Nat.lt_succ_self _) ?_
    show cs.length < _
    rw [List.length_append]
    omega
  show SameReading _ _ _ ((p.upTo (cs.length + 1)).read? ⟨cs, place⟩) _
  rw [hrounds]
  exact h.upTo _ cs blanks place place' hcs hblanks

theorem Alike.named {rule : Rule} (h : Alike n view p q) :
    Alike n view (named rule p) (named rule q) := by
  intro cs blanks place place' hcs hblanks
  rw [read?_named, read?_named]
  exact h cs blanks place place' hcs hblanks

theorem trimGap_append {blanks : List Char} (h : ∀ c ∈ blanks, Lexeme.isGap c = true)
    (cs : List Char) : Grammar.trimGap (cs ++ blanks) = Grammar.trimGap cs := by
  have hreverse : ∀ c ∈ blanks.reverse, Lexeme.isGap c = true :=
    fun c hc => h c (List.mem_reverse.mp hc)
  unfold Grammar.trimGap
  rw [List.reverse_append, List.dropWhile_append_of_pos hreverse]

/-- The same text is taken but for a gap at its end, so it can be seen without that. -/
theorem Alike.located (h : Alike n view p q) :
    Alike n (fun x : α × Position × List Char => (view x.1, Grammar.trimGap x.2.2))
      (located p) (located q) := by
  intro cs blanks place place' hcs hblanks
  have hsame := h cs blanks place place' hcs hblanks
  rw [read?_located, read?_located]
  generalize p.read? ⟨cs, place⟩ = x, q.read? ⟨cs ++ blanks, place'⟩ = y at hsame
  cases hsame with
  | none => exact .none
  | @some a b rest taken left _ _ hview hrest hsplit htaken =>
    subst hsplit
    have hsource : Grammar.trimGap (cs.take (cs.length - rest.length)) = Grammar.trimGap
        ((cs ++ (taken ++ left)).take ((cs ++ (taken ++ left)).length - (rest ++ left).length)) := by
      rcases htaken with rfl | rfl
      · rw [List.nil_append, List.length_append, List.length_append, Nat.add_sub_add_right,
          List.take_append_of_le_length (Nat.sub_le ..)]
      · rw [← List.append_assoc, List.length_append, List.nil_append, Nat.add_sub_cancel,
          List.take_left, List.length_nil, Nat.sub_zero, List.take_length,
          trimGap_append (List.forall_mem_append.mp hblanks).1]
    exact .some (Prod.ext hview hsource) hrest rfl htaken

theorem Alike.lexeme {split : List Char → Lexeme.Split} (h : ∀ cs, TakesQuoted cs (split cs))
    (hstops : ∀ {blanks}, (∀ c ∈ blanks, Lexeme.isGap c = true) → StopsBefore blanks split) :
    Alike n id (lexeme split) (lexeme split) := by
  intro cs blanks place place' _ hblanks
  rw [read?_lexeme, read?_lexeme]
  dsimp only
  rw [hstops hblanks]
  cases hsplit : split cs with
  | none => exact .none
  | some s =>
    obtain ⟨taken, rest⟩ := s
    obtain ⟨rfl, -⟩ := h cs taken rest hsplit
    refine .some rfl ?_ (List.nil_append _).symm (Or.inl rfl)
    rw [List.length_append]
    exact Nat.le_add_left ..

theorem read?_symbol_cons (c d : Char) (cs : List Char) (place : Position) :
    (symbol c).read? ⟨d :: cs, place⟩ =
      if d = c then some ([d], ⟨cs, place.after [d]⟩) else none := by
  unfold symbol
  rw [read?_lexeme]
  dsimp only
  split <;> rfl

/-- No symbol of the language stands in a gap. -/
theorem read?_symbol_of_isGap {c : Char} (hc : Lexeme.isGap c = false) {blanks : List Char}
    (hblanks : ∀ c ∈ blanks, Lexeme.isGap c = true) (place : Position) :
    (symbol c).read? ⟨blanks, place⟩ = none := by
  cases blanks with
  | nil => rfl
  | cons d blanks =>
    have hne : d ≠ c := by
      rintro rfl
      rw [hblanks d (List.mem_cons_self ..)] at hc
      cases hc
    rw [read?_symbol_cons, if_neg hne]

/-- Behind a symbol the text is shorter. -/
theorem Alike.symbol_bind {c : Char} (hc : Lexeme.isGap c = false) {f g : List Char → Reader α}
    (h : Alike n view (f [c]) (g [c])) :
    Alike (n + 1) view (Reader.symbol c >>= f) (Reader.symbol c >>= g) := by
  intro cs blanks place place' hcs hblanks
  rw [read?_bind, read?_bind]
  cases cs with
  | nil =>
    rw [List.nil_append, read?_symbol_of_isGap hc hblanks]
    exact .none
  | cons d cs =>
    rw [List.cons_append, read?_symbol_cons, read?_symbol_cons]
    by_cases hd : d = c
    · rw [if_pos hd, if_pos hd, hd]
      rw [List.length_cons] at hcs
      have hsame := h cs blanks (place.after [c]) (place'.after [c]) (by omega) hblanks
      simp only [Option.bind_some]
      generalize (f [c]).read? _ = x, (g [c]).read? _ = y at hsame
      cases hsame with
      | none => exact .none
      | some hview hrest hsplit htaken =>
        exact .some hview (Nat.le_succ_of_le hrest) hsplit htaken
    · rw [if_neg hd, if_neg hd]
      exact .none

theorem Alike.symbol (c : Char) (hc : Lexeme.isGap c = false) :
    Alike n id (symbol c) (symbol c) := by
  intro cs blanks place place' _ hblanks
  cases cs with
  | nil =>
    rw [List.nil_append, read?_symbol_of_isGap hc hblanks]
    exact .none
  | cons d cs =>
    rw [List.cons_append, read?_symbol_cons, read?_symbol_cons]
    split
    next => exact .some rfl (Nat.le_succ _) (List.nil_append _).symm (Or.inl rfl)
    next => exact .none

/-- A gap goes on in the gap behind the text if nothing else is left. -/
theorem exists_dropWhile_isGap_append {blanks : List Char}
    (hblanks : ∀ c ∈ blanks, Lexeme.isGap c = true) (cs : List Char) :
    ∃ taken left, (cs ++ blanks).dropWhile Lexeme.isGap = cs.dropWhile Lexeme.isGap ++ left ∧
      blanks = taken ++ left ∧
      (cs.dropWhile Lexeme.isGap = [] ∧ left = [] ∨ cs.dropWhile Lexeme.isGap ≠ [] ∧ taken = []) := by
  rw [List.dropWhile_append]
  cases hrest : cs.dropWhile Lexeme.isGap with
  | nil =>
    refine ⟨blanks, [], ?_, (List.append_nil _).symm, Or.inl ⟨rfl, rfl⟩⟩
    rw [if_pos List.isEmpty_nil, ← List.append_nil blanks, List.dropWhile_append_of_pos hblanks]
    rfl
  | cons c rest => exact ⟨[], blanks, rfl, rfl, Or.inr ⟨List.cons_ne_nil _ _, rfl⟩⟩

theorem read?_gap (cs : List Char) (place : Position) :
    gap.read? ⟨cs, place⟩ = some (cs.takeWhile Lexeme.isGap,
      ⟨cs.dropWhile Lexeme.isGap, place.after (cs.takeWhile Lexeme.isGap)⟩) :=
  rfl

/-- What a gap consists of is not seen. -/
theorem Alike.gap : Alike n (fun _ => ()) gap gap := by
  intro cs blanks place place' _ hblanks
  obtain ⟨taken, left, hdrop, hsplit, hends⟩ := exists_dropWhile_isGap_append hblanks cs
  rw [read?_gap, read?_gap, hdrop]
  refine .some rfl (List.dropWhile_suffix _).length_le hsplit ?_
  rcases hends with ⟨hrest, -⟩ | ⟨-, htaken⟩
  · exact Or.inr hrest
  · exact Or.inl htaken

theorem Alike.spaced (h : Alike n view p q) (hp : Advances p) :
    Alike n (List.map view) (spaced p) (spaced q) := by
  have hmany : Alike n (List.map view) (Reader.many (do let _ ← Reader.gap; p))
      (Reader.many (do let _ ← Reader.gap; q)) :=
    (Alike.gap.next h).many (Advances.next Takes.gap fun _ => hp)
  refine Alike.orElse (h.bind fun a b hview => hmany.bind fun as bs hviews => .pure ?_) (.pure rfl)
  rw [List.map_cons, List.map_cons, hview, hviews]

/-- With the gap in front of it, the end of the text is also found behind a gap. -/
theorem Alike.ends {a b : α} (h : view a = view b) :
    Alike n view (do let _ ← Reader.gap; endOfInput; Pure.pure a)
      (do let _ ← Reader.gap; endOfInput; Pure.pure b) := by
  intro cs blanks place place' _ hblanks
  obtain ⟨taken, left, hdrop, hsplit, hends⟩ := exists_dropWhile_isGap_append hblanks cs
  simp only [read?_bind, read?_gap, Option.bind_some, read?_endOfInput, read?_pure, hdrop]
  rcases hends with ⟨hrest, hleft⟩ | ⟨hrest, -⟩
  · subst hleft
    rw [hrest]
    exact .some h (Nat.zero_le _) hsplit (Or.inr rfl)
  · have hlong : cs.dropWhile Lexeme.isGap ++ left ≠ [] := List.append_ne_nil_of_left_ne_nil hrest _
    rw [if_neg (by rwa [List.isEmpty_iff]), if_neg (by rwa [List.isEmpty_iff])]
    exact .none

/-- A gap in front of a gap is taken with it. -/
theorem read?_gap_bind_append {blanks : List Char} (hblanks : ∀ c ∈ blanks, Lexeme.isGap c = true)
    (p : Reader α) (cs : List Char) (place : Position) :
    (gap >>= fun _ => p).read? ⟨blanks ++ cs, place⟩ =
      (gap >>= fun _ => p).read? ⟨cs, place.after blanks⟩ := by
  rw [read?_bind, read?_bind]
  show p.read? ⟨(blanks ++ cs).dropWhile _, place.after ((blanks ++ cs).takeWhile _)⟩ = _
  rw [List.takeWhile_append_of_pos hblanks, List.dropWhile_append_of_pos hblanks,
    Position.after_append]
  rfl

end Reader

namespace Grammar

open Reader
open Lexeme (TakesQuoted StopsBefore)

/-! ## The rules of the language -/

variable {n : Nat}

/-- A lexeme in front of a gap is the same as at the end of the text. -/
theorem alike_lexical {rule : Rule} {split : List Char → Lexeme.Split}
    (h : ∀ cs, TakesQuoted cs (split cs))
    (hstops : ∀ {rest}, Lexeme.Delimited rest → StopsBefore rest split) :
    Alike n id (lexical rule split) (lexical rule split) :=
  (Alike.lexeme h fun hblanks => hstops (Lexeme.delimited_of_isGap hblanks)).named

theorem alike_nameToken {p : Reader (List Char)} (h : Alike n id p p) :
    Alike n Token.bare (nameToken p) (nameToken p) := by
  refine h.located.bind fun (text, start, source) (text', start', source') hsame => .pure ?_
  have htext : text = text' := (Prod.mk.inj hsame).1
  rw [htext]
  rfl

theorem alike_stringLiteral : Alike n id stringLiteral stringLiteral :=
  (Alike.lexeme Lexeme.takesQuoted_string? Lexeme.stopsBefore_string?).named

theorem alike_stringOr {p : Reader (List Char)} (h : Alike n id p p) :
    Alike n id (stringOr p) (stringOr p) := by
  have hstring : Alike n id (Lexeme.meaning <$> stringLiteral) (Lexeme.meaning <$> stringLiteral) :=
    alike_stringLiteral.map fun _ _ hsame => congrArg Lexeme.meaning hsame
  exact hstring.orElse h

theorem alike_key : Alike n Token.bare key key := by
  have hname : Alike n id (lexical .attrName Lexeme.dashedName?)
      (lexical .attrName Lexeme.dashedName?) :=
    alike_lexical Lexeme.takesQuoted_dashedName? Lexeme.stopsBefore_dashedName?
  exact (alike_nameToken (alike_stringOr hname)).named

theorem alike_dictKey : Alike n Token.bare dictKey dictKey := by
  have hname : Alike n id (lexical .name Lexeme.name?) (lexical .name Lexeme.name?) :=
    alike_lexical Lexeme.takesQuoted_name? Lexeme.stopsBefore_name?
  exact (alike_nameToken (alike_stringOr hname)).named

/-- The text of a token is known from its source, without the gap at its end. -/
theorem bare_tokenOf {source source' : List Char} (h : trimGap source = trimGap source')
    (start start' : Position) :
    (tokenOf start source).bare = (tokenOf start' source').bare := by
  unfold tokenOf Token.bare
  rw [h]

theorem alike_literal {kind : Expr.Kind} {p : Reader (List Char)} (h : Alike n id p p) :
    Alike n Expr.placeless (literal kind p) (literal kind p) := by
  refine h.located.bind fun (text, start, source) (text', start', source') hsame => .pure ?_
  have hsource : trimGap source = trimGap source' := (Prod.mk.inj hsame).2
  exact Expr.placeless_plain (bare_tokenOf hsource ..) rfl

theorem alike_textLiteral : Alike n Expr.placeless textLiteral textLiteral := by
  refine alike_stringLiteral.located.bind
    fun (text, start, source) (text', start', source') hsame => .pure ?_
  have htext : text = text' := (Prod.mk.inj hsame).1
  rw [htext]
  exact Expr.placeless_plain rfl rfl

theorem map_getD_nil {α β : Type} (f : α → β) (found : Option (List α)) :
    (found.getD []).map f = (found.map (List.map f)).getD [] :=
  (Option.getD_map (List.map f) [] found).symm

/-- Items are read behind the opening bracket, where the text is shorter. -/
theorem alike_bracketed {α γ : Type} {view : α → γ} {opening closing : Char} {item item' : Reader α}
    (hopening : Lexeme.isGap opening = false) (hclosing : Lexeme.isGap closing = false)
    (h : Alike n view item item') (htakes : Takes item) :
    Alike (n + 1) (List.map view) (bracketed opening closing item)
      (bracketed opening closing item') := by
  have hnext : Alike n view (do let _ ← symbol ','; let _ ← gap; item)
      (do let _ ← symbol ','; let _ ← gap; item') :=
    (Alike.symbol ',' rfl).next (Alike.gap.next h)
  have hadvances : Advances (do let _ ← symbol ','; let _ ← gap; item) :=
    (Advances.symbol ',').bind fun _ => Takes.gap.bind fun _ => htakes
  have hitems : Alike n (List.map view)
      (do
        let first ← item
        let _ ← gap
        let more ← spaced (do let _ ← symbol ','; let _ ← gap; item)
        let _ ← gap
        let _ ← optional (symbol ',')
        pure (first :: more))
      (do
        let first ← item'
        let _ ← gap
        let more ← spaced (do let _ ← symbol ','; let _ ← gap; item')
        let _ ← gap
        let _ ← optional (symbol ',')
        pure (first :: more)) := by
    refine h.bind fun first first' hfirst => Alike.gap.next ?_
    refine (hnext.spaced hadvances).bind fun more more' hmore => Alike.gap.next ?_
    refine (Alike.symbol ',' rfl).optional.next (.pure ?_)
    rw [List.map_cons, List.map_cons, hfirst, hmore]
  refine Alike.symbol_bind hopening (Alike.gap.next ?_)
  refine hitems.optional.bind fun items items' hsame => Alike.gap.next ?_
  refine (Alike.symbol closing hclosing).next (.pure ?_)
  rw [map_getD_nil, map_getD_nil, hsame]

section Inner

variable {inner inner' : Reader Expr} (h : Alike n Expr.placeless inner inner')
  (htakes : Takes inner)
include h

theorem alike_group : Alike (n + 1) Expr.placeless (group inner) (group inner') := by
  refine Alike.named (Alike.symbol_bind rfl (Alike.gap.next ?_))
  exact h.bind fun e e' hsame => Alike.gap.next ((Alike.symbol ')' rfl).next (.pure hsame))

theorem alike_dictItem :
    Alike n (List.map Expr.placeless) (dictItem inner) (dictItem inner') := by
  refine Alike.named (alike_dictKey.bind fun name name' hname => Alike.gap.next ?_)
  refine (Alike.symbol ':' rfl).next (Alike.gap.next (h.bind fun value value' hvalue => .pure ?_))
  have hkey : (Expr.plain name .text []).placeless = (Expr.plain name' .text []).placeless :=
    Expr.placeless_plain hname rfl
  simp only [List.map_cons, List.map_nil, hkey, hvalue]

include htakes

theorem alike_list : Alike (n + 1) Expr.placeless (list inner) (list inner') := by
  refine (alike_bracketed rfl rfl h htakes).named.located.bind
    fun (items, start, source) (items', start', source') hsame => .pure ?_
  obtain ⟨hitems, hsource⟩ := Prod.mk.inj hsame
  exact Expr.placeless_plain (bare_tokenOf hsource ..) hitems

theorem alike_dict : Alike (n + 1) Expr.placeless (dict inner) (dict inner') := by
  refine (alike_bracketed rfl rfl (alike_dictItem h) (takes_dictItem htakes)).named.located.bind
    fun (entries, start, source) (entries', start', source') hsame => .pure ?_
  obtain ⟨hentries, hsource⟩ := Prod.mk.inj hsame
  have hentries : entries.map (List.map Expr.placeless) = entries'.map (List.map Expr.placeless) :=
    hentries
  refine Expr.placeless_plain (bare_tokenOf hsource ..) ?_
  rw [List.map_flatten, List.map_flatten, hentries]

theorem alike_primary : Alike (n + 1) Expr.placeless (primary inner) (primary inner') := by
  have hfloat : Alike (n + 1) id (lexical .float Lexeme.float?) (lexical .float Lexeme.float?) :=
    alike_lexical Lexeme.takesQuoted_float? Lexeme.stopsBefore_float?
  have hint : Alike (n + 1) id (lexical .int Lexeme.int?) (lexical .int Lexeme.int?) :=
    alike_lexical Lexeme.takesQuoted_int? Lexeme.stopsBefore_int?
  have hbool : Alike (n + 1) id (lexical .boolean Lexeme.boolean?)
      (lexical .boolean Lexeme.boolean?) :=
    alike_lexical Lexeme.takesQuoted_boolean? Lexeme.stopsBefore_boolean?
  have hnull : Alike (n + 1) id (lexical .null Lexeme.null?) (lexical .null Lexeme.null?) :=
    alike_lexical Lexeme.takesQuoted_null? Lexeme.stopsBefore_null?
  have hpath : Alike (n + 1) id (lexical .path Lexeme.path?) (lexical .path Lexeme.path?) :=
    alike_lexical Lexeme.takesQuoted_path? Lexeme.stopsBefore_path?
  exact (alike_group h).orElse <| (alike_list h htakes).orElse <| (alike_dict h htakes).orElse <|
    (alike_literal hfloat).orElse <| (alike_literal hint).orElse <| (alike_literal hbool).orElse <|
    (alike_literal hnull).orElse <| alike_textLiteral.orElse (alike_literal hpath)

theorem alike_filter : Alike (n + 1) FilterCall.placeless (filter inner) (filter inner') := by
  have hname : Alike (n + 1) Token.bare (nameToken (lexical .filterName Lexeme.name?))
      (nameToken (lexical .filterName Lexeme.name?)) :=
    alike_nameToken (alike_lexical Lexeme.takesQuoted_name? Lexeme.stopsBefore_name?)
  have hargs : Alike (n + 1) (Option.map (List.map Expr.placeless))
      (optional (named .filterArgs (bracketed '(' ')' inner)))
      (optional (named .filterArgs (bracketed '(' ')' inner'))) :=
    (alike_bracketed rfl rfl h htakes).named.optional
  have hparts : Alike (n + 1) (Prod.map Token.bare (List.map Expr.placeless))
      (do
        let _ ← symbol '|'
        let _ ← gap
        let name ← nameToken (lexical .filterName Lexeme.name?)
        let _ ← gap
        let args ← optional (named .filterArgs (bracketed '(' ')' inner))
        pure (name, args.getD []))
      (do
        let _ ← symbol '|'
        let _ ← gap
        let name ← nameToken (lexical .filterName Lexeme.name?)
        let _ ← gap
        let args ← optional (named .filterArgs (bracketed '(' ')' inner'))
        pure (name, args.getD [])) := by
    refine (Alike.symbol '|' rfl).next (Alike.gap.next ?_)
    refine hname.bind fun name name' hname => Alike.gap.next (hargs.bind fun args args' hargs => ?_)
    refine .pure (Prod.ext hname ?_)
    rw [Prod.map_snd, Prod.map_snd, map_getD_nil, map_getD_nil, hargs]
  refine Alike.named (hparts.located.bind fun ((name, args), start, source)
    ((name', args'), start', source') hsame => .pure ?_)
  obtain ⟨hname, hargs⟩ := Prod.mk.inj (Prod.mk.inj hsame).1
  rw [FilterCall.placeless, FilterCall.placeless, hname, hargs]

theorem alike_filterChain :
    Alike (n + 1) (List.map FilterCall.placeless) (filterChain inner) (filterChain inner') := by
  have hfilter := alike_filter h htakes
  refine Alike.named (hfilter.bind fun first first' hfirst => Alike.gap.next ?_)
  refine (hfilter.spaced (advances_filter htakes)).bind fun more more' hmore => .pure ?_
  rw [List.map_cons, List.map_cons, hfirst, hmore]

theorem alike_operand : Alike (n + 1) Expr.placeless (operand inner) (operand inner') := by
  have hparts : Alike (n + 1) (Prod.map Expr.placeless (List.map FilterCall.placeless))
      (do
        let e ← primary inner
        let _ ← gap
        let filters ← optional (filterChain inner)
        pure (e, filters.getD []))
      (do
        let e ← primary inner'
        let _ ← gap
        let filters ← optional (filterChain inner')
        pure (e, filters.getD [])) := by
    refine (alike_primary h htakes).bind fun e e' he => Alike.gap.next ?_
    refine (alike_filterChain h htakes).optional.bind fun filters filters' hfilters => .pure ?_
    refine Prod.ext he ?_
    rw [Prod.map_snd, Prod.map_snd, map_getD_nil, map_getD_nil, hfilters]
  refine Alike.named (hparts.located.bind fun ((e, filters), start, source)
    ((e', filters'), start', source') hsame => .pure ?_)
  obtain ⟨he, hfilters⟩ := Prod.mk.inj (Prod.mk.inj hsame).1
  rw [Expr.placeless_withFilters, Expr.placeless_withFilters, he, hfilters]

theorem alike_expression : Alike (n + 1) Expr.placeless (expression inner) (expression inner') := by
  have hplus : Alike (n + 1) Expr.placeless (do let _ ← symbol '+'; let _ ← gap; operand inner)
      (do let _ ← symbol '+'; let _ ← gap; operand inner') :=
    (Alike.symbol '+' rfl).next (Alike.gap.next (alike_operand h htakes))
  have hadvances : Advances (do let _ ← symbol '+'; let _ ← gap; operand inner) :=
    (Advances.symbol '+').bind fun _ => Takes.gap.bind fun _ => takes_operand htakes
  have hparts : Alike (n + 1) (Prod.map Expr.placeless (List.map Expr.placeless))
      (do
        let first ← operand inner
        let _ ← gap
        let more ← spaced (do let _ ← symbol '+'; let _ ← gap; operand inner)
        pure (first, more))
      (do
        let first ← operand inner'
        let _ ← gap
        let more ← spaced (do let _ ← symbol '+'; let _ ← gap; operand inner')
        pure (first, more)) := by
    refine (alike_operand h htakes).bind fun first first' hfirst => Alike.gap.next ?_
    exact (hplus.spaced hadvances).bind fun more more' hmore => .pure (Prod.ext hfirst hmore)
  refine Alike.named (hparts.located.bind fun ((first, more), start, source)
    ((first', more'), start', source') hsame => ?_)
  obtain ⟨hparts, hsource⟩ := Prod.mk.inj hsame
  obtain ⟨hfirst, hmore⟩ := Prod.mk.inj hparts
  -- both are sums, or neither is
  cases more with
  | nil =>
    cases more' with
    | nil => exact .pure hfirst
    | cons => cases hmore
  | cons e rest =>
    cases more' with
    | nil => cases hmore
    | cons e' rest' =>
      refine .pure (Expr.placeless_plain (bare_tokenOf hsource ..) ?_)
      rw [List.map_cons, hfirst, hmore, ← List.map_cons]

theorem alike_argument : Alike (n + 1) Argument.placeless (argument inner) (argument inner') := by
  have hkeyed : Alike (n + 1) (Prod.map (Option.map Token.bare) Expr.placeless)
      (do
        let name ← key
        let _ ← gap
        let _ ← symbol '='
        let _ ← gap
        let value ← expression inner
        pure (some name, value))
      (do
        let name ← key
        let _ ← gap
        let _ ← symbol '='
        let _ ← gap
        let value ← expression inner'
        pure (some name, value)) := by
    refine alike_key.bind fun name name' hname => Alike.gap.next ?_
    refine (Alike.symbol '=' rfl).next (Alike.gap.next ?_)
    exact (alike_expression h htakes).bind fun value value' hvalue =>
      .pure (Prod.ext (congrArg some hname) hvalue)
  have hbare : Alike (n + 1) (Prod.map (Option.map Token.bare) Expr.placeless)
      (do let value ← expression inner; pure (none, value))
      (do let value ← expression inner'; pure (none, value)) :=
    (alike_expression h htakes).bind fun value value' hvalue => .pure (Prod.ext rfl hvalue)
  refine Alike.named ((hkeyed.orElse hbare).located.bind fun ((key, value), start, source)
    ((key', value'), start', source') hsame => .pure ?_)
  obtain ⟨hkey, hvalue⟩ := Prod.mk.inj (Prod.mk.inj hsame).1
  rw [Argument.placeless, Argument.placeless, hkey, hvalue]

theorem alike_signature :
    Alike (n + 1) (List.map Argument.placeless) (signature inner) (signature inner') := by
  have hitem : Alike (n + 1) Argument.placeless
      (do
        let a ← argument inner
        let _ ← gap
        let _ ← optional (symbol ',')
        pure a)
      (do
        let a ← argument inner'
        let _ ← gap
        let _ ← optional (symbol ',')
        pure a) :=
    (alike_argument h htakes).bind fun a a' hsame =>
      Alike.gap.next ((Alike.symbol ',' rfl).optional.next (.pure hsame))
  have hadvances : Advances (do
      let a ← argument inner
      let _ ← gap
      let _ ← optional (symbol ',')
      pure a) :=
    (advances_argument htakes).bind fun _ => Takes.gap.bind fun _ =>
      (Takes.symbol (by decide)).optional.bind fun _ => .pure _
  exact Alike.named (Alike.gap.next
    ((hitem.spaced hadvances).bind fun args args' hsame => Alike.ends hsame))

end Inner

/-- Of a text shorter than `k`, the same expression is read with every bound of `k` at least. -/
theorem alike_expressionAt :
    ∀ (k : Nat) {m n : Nat}, k ≤ m → k ≤ n →
      Alike k Expr.placeless (expressionAt m) (expressionAt n) := by
  intro k
  induction k with
  | zero =>
    intro m n _ _ cs blanks place place' hcs
    omega
  | succ k ih =>
    intro m n hm hn
    obtain ⟨m, rfl⟩ := Nat.exists_eq_add_of_lt hm
    obtain ⟨n, rfl⟩ := Nat.exists_eq_add_of_lt hn
    rw [expressionAt_succ, expressionAt_succ]
    exact alike_expression (ih (by omega) (by omega)) (takes_expressionAt _)

end Grammar

/-! ## Gaps around an argument list -/

open Reader Grammar

/-- Whether some argument has an empty key is seen without places. -/
theorem Argument.any_emptyKey_placeless (args : List Argument) :
    ((args.map Argument.placeless).any fun a => a.key.any (·.text.isEmpty)) =
      args.any fun a => a.key.any (·.text.isEmpty) := by
  rw [List.any_map]
  congr 1
  funext a
  cases ha : a.key <;> simp [Argument.placeless, ha, Token.bare]

/-- A signature begins with a gap. -/
theorem Grammar.read?_signature_append {inner : Reader Expr} {blanks : List Char}
    (hblanks : ∀ c ∈ blanks, Lexeme.isGap c = true) (cs : List Char) (place : Position) :
    (signature inner).read? ⟨blanks ++ cs, place⟩ =
      (signature inner).read? ⟨cs, place.after blanks⟩ := by
  unfold signature
  rw [read?_named, read?_named]
  exact read?_gap_bind_append hblanks _ cs place

theorem Lexeme.isGap_of_mem_blank : ∀ c ∈ " ".toList, isGap c = true := by
  intro c hc
  cases List.mem_singleton.mp hc
  rfl

/-- Gaps around an argument list change nothing but places. -/
theorem Argument.readList_between (before after : String) {text : String} {args : List Argument}
    (hbefore : ∀ c ∈ before.toList, Lexeme.isGap c = true)
    (hafter : ∀ c ∈ after.toList, Lexeme.isGap c = true) (h : Argument.readList text = .ok args) :
    ∃ args', Argument.readList (before ++ (text ++ after)) = .ok args' ∧
      args'.map Argument.placeless = args.map Argument.placeless := by
  obtain ⟨hread, hkeys⟩ := readList_eq_ok_iff.mp h
  obtain ⟨d, hread⟩ := readAll_eq_ok_iff.mp hread
  have hbound : text.toList.length ≤ (before ++ (text ++ after)).toList.length + 1 := by
    rw [String.toList_append, String.toList_append, List.length_append, List.length_append]
    omega
  -- the gap in front is taken first; behind it stands the same text, at another place
  have hsame := alike_signature
    (alike_expressionAt text.toList.length (Nat.le_succ _) hbound) (takes_expressionAt _)
    text.toList after.toList .start (Position.start.after before.toList) (Nat.lt_succ_self _) hafter
  rw [← read?_signature_append hbefore, ← String.toList_append, ← String.toList_append,
    hread] at hsame
  generalize hread' : (signature _).read? ⟨(before ++ (text ++ after)).toList, _⟩ = outcome at hsame
  cases hsame with
  | @some _ args' _ _ _ _ _ hview _ _ _ =>
    refine ⟨args', readList_eq_ok_iff.mpr ⟨readAll_eq_ok_iff.mpr ⟨_, hread'⟩, ?_⟩, hview.symm⟩
    rw [← any_emptyKey_placeless, ← hview, any_emptyKey_placeless, hkeys]

/-- A gap in front of an argument list changes nothing but places. -/
theorem Argument.readList_append (blanks : String) {text : String} {args : List Argument}
    (hblanks : ∀ c ∈ blanks.toList, Lexeme.isGap c = true)
    (h : Argument.readList text = .ok args) :
    ∃ args', Argument.readList (blanks ++ text) = .ok args' ∧
      args'.map Argument.placeless = args.map Argument.placeless := by
  have hread := readList_between blanks "" hblanks (fun c hc => absurd hc List.not_mem_nil) h
  rwa [String.append_empty] at hread

end TagTemplate
