import TagTemplate.Expression.Evaluate
import TagTemplate.Proofs.Expression.Grammar
import TagTemplate.Proofs.Expression.Takes

/-!
# What is read can be evaluated

Evaluating an expression has to be ready for tokens that are no numbers and for dicts with a key too
many, although none of these is ever read. `Expr.Evaluable` says of an expression that there are none
in it, at any depth, and it holds of everything that the grammar gives: of numbers because of their
lexemes, of dicts because they are put together from entries of two, and of everything else because
it holds of the parts.

> `Expr.evaluable_of_read`, `Argument.evaluable_of_readList`: whatever is read of a text can be
> evaluated.

What a reader gives is followed with `Gives`, which has one lemma for each way in which readers are
made and then one for each rule of the grammar.
-/

namespace TagTemplate

/-! ## Numbers -/

namespace Number

variable {ds : List Char}

/-- A text that begins with a digit has no sign. -/
theorem splitSign_of_isDigit {c : Char} (hc : c.isDigit = true) (cs : List Char) :
    splitSign (c :: cs) = (false, c :: cs) := by
  unfold splitSign
  split
  next heq =>
    cases heq
    exact absurd hc (by decide)
  next heq =>
    cases heq
    exact absurd hc (by decide)
  next => rfl

/-- Digits are a decimal, and so are digits with a point and any digits behind it. -/
theorem readDecimal?_eq_some (hne : ds ≠ []) (hdigits : ∀ c ∈ ds, c.isDigit = true)
    {rest : List Char} (hrest : rest = [] ∨ ∃ fs, rest = '.' :: fs ∧ ∀ c ∈ fs, c.isDigit = true) :
    ∃ decimal, readDecimal? (ds ++ rest) = some decimal := by
  have hwhole : ∀ fraction : List Char, ((ds ++ []).isEmpty && fraction.isEmpty) = false := by
    intro fraction
    rw [List.append_nil, List.isEmpty_eq_false_iff.mpr hne, Bool.false_and]
  unfold readDecimal?
  rw [List.takeWhile_append_of_pos hdigits, List.dropWhile_append_of_pos hdigits]
  rcases hrest with rfl | ⟨fs, rfl, hfs⟩
  · exact ⟨_, if_neg (Bool.eq_false_iff.mp (hwhole []))⟩
  · have hexponent : readExponent? (fs.dropWhile Char.isDigit) = some 0 := by
      rw [← List.append_nil fs, List.dropWhile_append_of_pos hfs]
      rfl
    have hsome := hwhole (fs.takeWhile Char.isDigit)
    exact ⟨_, (if_neg (Bool.eq_false_iff.mp hsome)).trans (congrArg (Option.map _) hexponent)⟩

/-- A number as it is written in the argument language is read as a double. -/
theorem readFloat?_eq_some (hne : ds ≠ []) (hdigits : ∀ c ∈ ds, c.isDigit = true)
    {rest : List Char} (hrest : rest = [] ∨ ∃ fs, rest = '.' :: fs ∧ ∀ c ∈ fs, c.isDigit = true) :
    (∃ x, readFloat? (ds ++ rest) = some x) ∧ ∃ x, readFloat? ('-' :: (ds ++ rest)) = some x := by
  obtain ⟨decimal, hdecimal⟩ := readDecimal?_eq_some hne hdigits hrest
  cases ds with
  | nil => exact absurd rfl hne
  | cons c cs =>
    have hplus := splitSign_of_isDigit (hdigits c (List.mem_cons_self ..)) (cs ++ rest)
    have hminus : splitSign ('-' :: (c :: cs ++ rest)) = (true, c :: cs ++ rest) := rfl
    rw [← List.cons_append] at hplus
    unfold readFloat?
    rw [hplus, hminus]
    dsimp only
    rw [hdecimal]
    exact ⟨⟨_, rfl⟩, ⟨_, rfl⟩⟩

end Number

namespace Value

/-- The lexeme of a number with a fraction is read as a double. -/
theorem readFloat_of_float? {cs taken left : List Char}
    (h : Lexeme.float? cs = some (taken, left)) :
    ∃ v, readFloat (String.ofList taken) = .ok v := by
  obtain ⟨ds, fs, htaken, hne, hdigits, hfs⟩ := Lexeme.float?_eq_some h
  obtain ⟨⟨x, hplus⟩, ⟨y, hminus⟩⟩ := Number.readFloat?_eq_some hne hdigits (Or.inr ⟨fs, rfl, hfs⟩)
  unfold readFloat
  rw [String.toList_ofList]
  rcases htaken with rfl | rfl
  · exact ⟨.float x, by rw [hplus]⟩
  · exact ⟨.float y, by rw [hminus]⟩

/-- The lexeme of a whole number is read as an integer, or as a double if it is too large. -/
theorem readNumber_of_int? {cs taken left : List Char} (h : Lexeme.int? cs = some (taken, left)) :
    ∃ v, readNumber (String.ofList taken) = .ok v := by
  obtain ⟨ds, htaken, hne, hdigits⟩ :=
    Lexeme.signedDigits?_eq_some (Lexeme.wholeWord_eq_some_iff.mp h).1
  obtain ⟨⟨x, hplus⟩, ⟨y, hminus⟩⟩ := Number.readFloat?_eq_some hne hdigits (Or.inl rfl)
  rw [List.append_nil] at hplus hminus
  unfold readNumber
  split
  next n _ => exact ⟨.int n, rfl⟩
  next =>
    unfold readFloat
    rw [String.toList_ofList]
    rcases htaken with rfl | rfl
    · exact ⟨.float x, by rw [hplus]⟩
    · exact ⟨.float y, by rw [hminus]⟩

end Value

/-! ## Expressions -/

namespace Expr

mutual

/-- The expression and all expressions in it, at any depth, satisfy `q`. -/
def EveryNode (q : Expr → Prop) : Expr → Prop
  | node token children kind filters span =>
    q (node token children kind filters span) ∧ EveryNodeIn q children ∧ EveryNodeOf q filters

/-- Several expressions and all expressions in them satisfy `q`. -/
def EveryNodeIn (q : Expr → Prop) : List Expr → Prop
  | [] => True
  | e :: rest => e.EveryNode q ∧ EveryNodeIn q rest

/-- All expressions in the arguments of filters satisfy `q`. -/
def EveryNodeOf (q : Expr → Prop) : List (FilterCall Expr) → Prop
  | [] => True
  | ⟨_, args, _⟩ :: rest => EveryNodeIn q args ∧ EveryNodeOf q rest

end

variable {q : Expr → Prop}

theorem everyNodeIn_iff {es : List Expr} : EveryNodeIn q es ↔ ∀ e ∈ es, e.EveryNode q := by
  induction es with
  | nil => simp [EveryNodeIn]
  | cons e rest ih => simp [EveryNodeIn, ih]

theorem everyNodeOf_iff {filters : List (FilterCall Expr)} :
    EveryNodeOf q filters ↔ ∀ f ∈ filters, ∀ e ∈ f.args, e.EveryNode q := by
  induction filters with
  | nil => simp [EveryNodeOf]
  | cons f rest ih => simp [EveryNodeOf, ih, everyNodeIn_iff]

theorem EveryNode.self {e : Expr} (h : e.EveryNode q) : q e := by
  obtain ⟨token, children, kind, filters, span⟩ := e
  exact h.1

/-- Further filters leave everything inside as it was. -/
theorem EveryNode.withFilters {e : Expr} {added : List (FilterCall Expr)} {span : Span}
    (he : e.EveryNode q) (hself : q (e.withFilters added span))
    (h : ∀ f ∈ added, ∀ a ∈ f.args, a.EveryNode q) : (e.withFilters added span).EveryNode q := by
  obtain ⟨token, children, kind, filters, place⟩ := e
  obtain ⟨-, hchildren, hfilters⟩ := he
  refine ⟨hself, hchildren, everyNodeOf_iff.mpr fun f hf => ?_⟩
  rcases List.mem_append.mp hf with hf | hf
  · exact everyNodeOf_iff.mp hfilters f hf
  · exact h f hf

/-- The token of a number is read as one, and the parts of a dict are keys and values in turn. -/
def IsSound (e : Expr) : Prop :=
  match e.kind with
  | .int => ∃ v, Value.readNumber e.token.text = .ok v
  | .float => ∃ v, Value.readFloat e.token.text = .ok v
  | .dict => 2 ∣ e.children.length
  | _ => True

/-- All numbers and dicts in the expression, at any depth, can be evaluated. -/
def Evaluable (e : Expr) : Prop :=
  e.EveryNode IsSound

theorem evaluable_plain {token : Token} {kind : Kind} {children : List Expr}
    (hsound : (plain token kind children).IsSound) (h : ∀ e ∈ children, e.Evaluable) :
    (plain token kind children).Evaluable :=
  ⟨hsound, everyNodeIn_iff.mpr h, trivial⟩

/-- Further filters can be evaluated if their arguments can. -/
theorem Evaluable.withFilters {e : Expr} {added : List (FilterCall Expr)} {span : Span}
    (he : e.Evaluable) (h : ∀ f ∈ added, ∀ a ∈ f.args, a.Evaluable) :
    (e.withFilters added span).Evaluable := by
  have hsound : (e.withFilters added span).IsSound := by
    obtain ⟨token, children, kind, filters, place⟩ := e
    have hself : (node token children kind filters place).IsSound := EveryNode.self he
    exact hself
  exact EveryNode.withFilters he hsound h

end Expr

/-! ## What readers give -/

namespace Reader

variable {α β : Type} {p q : Reader α} {post : α → Prop}

/-- Whatever the reader gives satisfies `post`. -/
def Gives (p : Reader α) (post : α → Prop) : Prop :=
  ∀ c a d, p.read? c = some (a, d) → post a

theorem Gives.fail : Gives (fail : Reader α) post := by
  intro c a d h
  rw [read?_fail] at h
  cases h

theorem Gives.any (p : Reader α) : Gives p fun _ => True :=
  fun _ _ _ _ => trivial

theorem Gives.pure {a : α} (h : post a) : Gives (pure a) post := by
  intro c b d hread
  rw [read?_pure] at hread
  cases hread
  exact h

theorem Gives.bind {f : α → Reader β} {post' : β → Prop} (hp : Gives p post)
    (hf : ∀ a, post a → Gives (f a) post') : Gives (p >>= f) post' := by
  intro c b e h
  rw [read?_bind] at h
  obtain ⟨⟨a, d⟩, hread, hnext⟩ := Option.bind_eq_some_iff.mp h
  exact hf a (hp c a d hread) d b e hnext

/-- Goes on with what does not depend on what was read. -/
theorem Gives.next {f : α → Reader β} {post' : β → Prop} (hf : ∀ a, Gives (f a) post') :
    Gives (p >>= f) post' :=
  (Gives.any p).bind fun a _ => hf a

theorem Gives.map {f : α → β} {post' : β → Prop} (hp : Gives p fun a => post' (f a)) :
    Gives (f <$> p) post' := by
  intro c b e h
  rw [read?_map] at h
  obtain ⟨⟨a, d⟩, hread, heq⟩ := Option.map_eq_some_iff.mp h
  cases heq
  exact hp c a e hread

theorem Gives.orElse (hp : Gives p post) (hq : Gives q post) : Gives (p <|> q) post := by
  intro c a d h
  rw [read?_orElse] at h
  rcases Option.or_eq_some_iff.mp h with hread | ⟨-, hread⟩
  · exact hp c a d hread
  · exact hq c a d hread

theorem Gives.optional (hp : Gives p post) : Gives (optional p) fun o => ∀ a ∈ o, post a :=
  Gives.orElse (Gives.map fun c a d h _ heq => Option.some.inj heq ▸ hp c a d h)
    (.pure fun _ h => by cases h)

theorem Gives.upTo (hp : Gives p post) (n : Nat) : Gives (p.upTo n) fun as => ∀ a ∈ as, post a := by
  induction n with
  | zero => exact .pure fun a ha => absurd ha List.not_mem_nil
  | succ n ih =>
    refine Gives.orElse (hp.bind fun a ha => ih.bind fun as has => .pure ?_)
      (.pure fun a ha => absurd ha List.not_mem_nil)
    exact List.forall_mem_cons.mpr ⟨ha, has⟩

theorem Gives.many (hp : Gives p post) : Gives (many p) fun as => ∀ a ∈ as, post a :=
  fun c a d h => hp.upTo (c.rest.length + 1) c a d h

theorem Gives.spaced (hp : Gives p post) : Gives (spaced p) fun as => ∀ a ∈ as, post a := by
  have hmany : Gives (Reader.many (do let _ ← gap; p)) fun as => ∀ a ∈ as, post a :=
    (Gives.next fun _ => hp).many
  refine Gives.orElse (hp.bind fun a ha => hmany.bind fun as has => .pure ?_)
    (.pure fun a ha => absurd ha List.not_mem_nil)
  exact List.forall_mem_cons.mpr ⟨ha, has⟩

theorem Gives.named {rule : Rule} (hp : Gives p post) : Gives (named rule p) post := by
  intro c a d h
  rw [read?_named] at h
  exact hp c a d h

theorem Gives.located (hp : Gives p post) :
    Gives (located p) fun x : α × Position × List Char => post x.1 := by
  intro c x d h
  rw [read?_located] at h
  obtain ⟨⟨a, e⟩, hread, heq⟩ := Option.map_eq_some_iff.mp h
  cases heq
  exact hp c a d hread

end Reader

namespace Grammar

open Reader

theorem forall_mem_getD {α : Type} {post : α → Prop} {found : Option (List α)}
    (h : ∀ as ∈ found, ∀ a ∈ as, post a) : ∀ a ∈ found.getD [], post a := by
  cases found with
  | none => exact fun a ha => absurd ha List.not_mem_nil
  | some as => exact h as rfl

theorem two_dvd_length_flatten {α : Type} {pairs : List (List α)} (h : ∀ l ∈ pairs, l.length = 2) :
    2 ∣ pairs.flatten.length := by
  induction pairs with
  | nil => exact Nat.dvd_zero 2
  | cons l rest ih =>
    obtain ⟨hl, hrest⟩ := List.forall_mem_cons.mp h
    rw [List.flatten_cons, List.length_append, hl]
    exact Nat.dvd_add (Nat.dvd_refl 2) (ih hrest)

/-- An expression that is a single lexeme is known from the lexeme. -/
theorem gives_literal {kind : Expr.Kind} {rule : Rule} {split : List Char → Lexeme.Split}
    {post : Expr → Prop} (htakes : ∀ cs, Lexeme.TakesQuoted cs (split cs))
    (hgap : ∀ cs taken left, split cs = some (taken, left) → ∀ c ∈ taken, Lexeme.isGap c = false)
    (hpost : ∀ cs taken left span, split cs = some (taken, left) →
      post (.plain ⟨String.ofList taken, span⟩ kind [])) :
    Gives (literal kind (lexical rule split)) post := by
  intro c e d h
  unfold literal lexical at h
  rw [read?_bind, read?_located, read?_named, read?_lexeme] at h
  cases hsplit : split c.rest with
  | none =>
    rw [hsplit] at h
    cases h
  | some s =>
    obtain ⟨taken, left⟩ := s
    rw [hsplit] at h
    obtain ⟨hrest, -⟩ := htakes c.rest taken left hsplit
    have htoken : tokenOf c.position (c.rest.take (c.rest.length - left.length)) =
        ⟨String.ofList taken, .over c.position taken⟩ := by
      rw [hrest]
      exact tokenOf_append (hgap _ _ _ hsplit) c.position
    simp only [Option.map_some, Option.bind_some, htoken] at h
    cases h
    exact hpost _ _ _ _ hsplit

theorem gives_bracketed {α : Type} {opening closing : Char} {item : Reader α} {post : α → Prop}
    (h : Gives item post) : Gives (bracketed opening closing item) fun as => ∀ a ∈ as, post a := by
  have hnext : Gives (do let _ ← symbol ','; let _ ← gap; item) post :=
    .next fun _ => .next fun _ => h
  refine .next fun _ => .next fun _ => Gives.bind (Gives.optional ?_) fun found hfound =>
    .next fun _ => .next fun _ => .pure (forall_mem_getD hfound)
  refine h.bind fun first hfirst => .next fun _ => hnext.spaced.bind fun more hmore =>
    .next fun _ => .next fun _ => .pure ?_
  exact List.forall_mem_cons.mpr ⟨hfirst, hmore⟩

/-! ## The rules of the language -/

section Inner

variable {inner : Reader Expr} (h : Gives inner Expr.Evaluable)
include h

theorem gives_group : Gives (group inner) Expr.Evaluable :=
  Gives.named (.next fun _ => .next fun _ => h.bind fun _ he => .next fun _ => .next fun _ =>
    .pure he)

theorem gives_list : Gives (list inner) Expr.Evaluable :=
  (gives_bracketed h).named.located.bind fun (_, _, _) hitems =>
    .pure (Expr.evaluable_plain trivial hitems)

/-- An entry of a dict is a key and a value. -/
theorem gives_dictItem :
    Gives (dictItem inner) fun entry => entry.length = 2 ∧ ∀ e ∈ entry, e.Evaluable := by
  refine Gives.named (.next fun name => .next fun _ => .next fun _ => .next fun _ =>
    h.bind fun value hvalue => .pure ⟨rfl, ?_⟩)
  have hname : (Expr.plain name .text []).Evaluable :=
    Expr.evaluable_plain trivial fun e he => absurd he List.not_mem_nil
  exact List.forall_mem_cons.mpr ⟨hname, List.forall_mem_singleton.mpr hvalue⟩

theorem gives_dict : Gives (dict inner) Expr.Evaluable := by
  refine (gives_bracketed (gives_dictItem h)).named.located.bind
    fun (entries, _, _) hentries => .pure (Expr.evaluable_plain ?_ ?_)
  · exact two_dvd_length_flatten fun entry hentry => (hentries entry hentry).1
  · intro e he
    obtain ⟨entry, hentry, he⟩ := List.mem_flatten.mp he
    exact (hentries entry hentry).2 e he

theorem gives_primary : Gives (primary inner) Expr.Evaluable := by
  have hleaf : ∀ e ∈ ([] : List Expr), e.Evaluable := fun e he => absurd he List.not_mem_nil
  have hfloat : Gives (literal .float (lexical .float Lexeme.float?)) Expr.Evaluable :=
    gives_literal Lexeme.takesQuoted_float? (fun _ _ _ => Lexeme.noGap_of_float?)
      fun _ _ _ _ hsplit => Expr.evaluable_plain (Value.readFloat_of_float? hsplit) hleaf
  have hint : Gives (literal .int (lexical .int Lexeme.int?)) Expr.Evaluable :=
    gives_literal Lexeme.takesQuoted_int? (fun _ _ _ => Lexeme.noGap_of_int?)
      fun _ _ _ _ hsplit => Expr.evaluable_plain (Value.readNumber_of_int? hsplit) hleaf
  -- nothing is asked of the tokens of other kinds
  have hbool : Gives (literal .bool (lexical .boolean Lexeme.boolean?)) Expr.Evaluable :=
    .next fun _ => .pure (Expr.evaluable_plain trivial hleaf)
  have hnull : Gives (literal .null (lexical .null Lexeme.null?)) Expr.Evaluable :=
    .next fun _ => .pure (Expr.evaluable_plain trivial hleaf)
  have htext : Gives textLiteral Expr.Evaluable :=
    .next fun _ => .pure (Expr.evaluable_plain trivial hleaf)
  have hpath : Gives (literal .path (lexical .path Lexeme.path?)) Expr.Evaluable :=
    .next fun _ => .pure (Expr.evaluable_plain trivial hleaf)
  exact (gives_group h).orElse <| (gives_list h).orElse <| (gives_dict h).orElse <|
    hfloat.orElse <| hint.orElse <| hbool.orElse <| hnull.orElse <| htext.orElse hpath

theorem gives_filter : Gives (filter inner) fun f => ∀ a ∈ f.args, a.Evaluable := by
  have hargs : Gives (optional (named .filterArgs (bracketed '(' ')' inner)))
      fun found => ∀ args ∈ found, ∀ a ∈ args, a.Evaluable :=
    (gives_bracketed h).named.optional
  have hparts : Gives (do
      let _ ← symbol '|'
      let _ ← gap
      let name ← nameToken (lexical .filterName Lexeme.name?)
      let _ ← gap
      let args ← optional (named .filterArgs (bracketed '(' ')' inner))
      Pure.pure (name, args.getD [])) fun x => ∀ a ∈ x.2, a.Evaluable :=
    .next fun _ => .next fun _ => .next fun _ => .next fun _ => hargs.bind fun _ hfound =>
      .pure (forall_mem_getD hfound)
  exact Gives.named (hparts.located.bind fun ((_, _), _, _) hargs => .pure hargs)

theorem gives_filterChain :
    Gives (filterChain inner) fun filters => ∀ f ∈ filters, ∀ a ∈ f.args, a.Evaluable :=
  Gives.named ((gives_filter h).bind fun _ hfirst => .next fun _ =>
    (gives_filter h).spaced.bind fun _ hmore => .pure (List.forall_mem_cons.mpr ⟨hfirst, hmore⟩))

theorem gives_operand : Gives (operand inner) Expr.Evaluable := by
  have hparts : Gives (do
      let e ← primary inner
      let _ ← gap
      let filters ← optional (filterChain inner)
      Pure.pure (e, filters.getD []))
      fun x => x.1.Evaluable ∧ ∀ f ∈ x.2, ∀ a ∈ f.args, a.Evaluable :=
    (gives_primary h).bind fun _ he => .next fun _ =>
      (gives_filterChain h).optional.bind fun _ hfound => .pure ⟨he, forall_mem_getD hfound⟩
  exact Gives.named (hparts.located.bind fun ((_, _), _, _) ⟨he, hfilters⟩ =>
    .pure (he.withFilters hfilters))

theorem gives_expression : Gives (expression inner) Expr.Evaluable := by
  have hplus : Gives (do let _ ← symbol '+'; let _ ← gap; operand inner) Expr.Evaluable :=
    .next fun _ => .next fun _ => gives_operand h
  have hparts : Gives (do
      let first ← operand inner
      let _ ← gap
      let more ← spaced (do let _ ← symbol '+'; let _ ← gap; operand inner)
      Pure.pure (first, more)) fun x => x.1.Evaluable ∧ ∀ e ∈ x.2, e.Evaluable :=
    (gives_operand h).bind fun _ hfirst => .next fun _ => hplus.spaced.bind fun _ hmore =>
      .pure ⟨hfirst, hmore⟩
  refine Gives.named (hparts.located.bind fun ((first, more), _, _) ⟨hfirst, hmore⟩ => ?_)
  cases more with
  | nil => exact .pure hfirst
  | cons e rest =>
    exact .pure (Expr.evaluable_plain trivial (List.forall_mem_cons.mpr ⟨hfirst, hmore⟩))

theorem gives_argument : Gives (argument inner) fun a => a.value.Evaluable := by
  have hkeyed : Gives (do
      let name ← key
      let _ ← gap
      let _ ← symbol '='
      let _ ← gap
      let value ← expression inner
      Pure.pure (some name, value)) fun x => x.2.Evaluable :=
    .next fun _ => .next fun _ => .next fun _ => .next fun _ => (gives_expression h).bind
      fun _ hvalue => .pure hvalue
  have hbare : Gives (do let value ← expression inner; Pure.pure (none, value))
      fun x : Option Token × Expr => x.2.Evaluable :=
    (gives_expression h).bind fun _ hvalue => .pure hvalue
  exact Gives.named ((hkeyed.orElse hbare).located.bind fun ((_, _), _, _) hvalue => .pure hvalue)

theorem gives_signature : Gives (signature inner) fun args => ∀ a ∈ args, a.value.Evaluable := by
  have hitem : Gives (do
      let a ← argument inner
      let _ ← gap
      let _ ← optional (symbol ',')
      Pure.pure a) fun a => a.value.Evaluable :=
    (gives_argument h).bind fun _ ha => .next fun _ => .next fun _ => .pure ha
  exact Gives.named (.next fun _ => hitem.spaced.bind fun _ hargs => .next fun _ =>
    .next fun _ => .pure hargs)

theorem gives_output : Gives (output inner) Expr.Evaluable :=
  Gives.named (.next fun _ => (gives_expression h).bind fun _ he => .next fun _ =>
    .next fun _ => .pure he)

end Inner

/-- The induction is on how deep brackets may be nested. -/
theorem gives_expressionAt (n : Nat) : Gives (expressionAt n) Expr.Evaluable := by
  induction n with
  | zero => exact .fail
  | succ n ih =>
    rw [expressionAt_succ]
    exact gives_expression ih

end Grammar

/-! ## Whole texts -/

open Reader Grammar

/-- What is read of a text can be evaluated. -/
theorem Expr.evaluable_of_read {text : String} {e : Expr} (h : Expr.read text = .ok e) :
    e.Evaluable := by
  obtain ⟨d, hread⟩ := readAll_eq_ok_iff.mp h
  exact gives_output (gives_expressionAt _) _ e d hread

/-- The arguments that are read of a text can be evaluated. -/
theorem Argument.evaluable_of_readList {text : String} {args : List Argument}
    (h : Argument.readList text = .ok args) : ∀ a ∈ args, a.value.Evaluable := by
  obtain ⟨d, hread⟩ := readAll_eq_ok_iff.mp (readList_eq_ok_iff.mp h).1
  exact gives_signature (gives_expressionAt _) _ args d hread

end TagTemplate
