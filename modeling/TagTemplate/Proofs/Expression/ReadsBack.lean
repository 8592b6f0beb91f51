import TagTemplate.Proofs.Expression.Grammar

/-!
# Printed expressions are read back

The text of an expression can stand in two places: in a sum, where it is an operand, and on its own.
The two differ only for a sum without filters, which needs parentheses in a sum. `ReadsBack` is what
has to be known of an expression so that whatever it is a part of can be read: in both places, with
anything behind that can stand there, it is read as itself, and reading stops where its text stops.

> `Expr.readsBack`: every expression that the language can write is read back.

One level is `Expr.readsBack_node`: an expression is read back if its parts are. It goes through the
rules from the inside out: a filter and a chain of filters (`reads_filterChain`), a primary
expression of any kind (`reads_primary`), an operand (`reads_operand`), a sum (`reads_expression`).
-/

namespace TagTemplate

open Reader Grammar

/-! ## Reading back -/

/-- What is read is the expression, up to places, and ends where its text ends, up to a gap. -/
def Expr.Means (e : Expr) (rest : List Char) (e' : Expr) (r : List Char) : Prop :=
  e'.bare = e.bare ∧ afterGap r = afterGap rest

/-- In a sum, the text of the expression is read as that expression. The number of brackets that the
reader can open is only asked to be large enough for the text. -/
structure Expr.ReadsAsOperand (e : Expr) : Prop where
  begins : ∀ rest, afterGap (e.print true ++ rest) = e.print true ++ rest
  reads : ∀ n rest, OperandEnds rest → (e.print true).length ≤ n →
    Reads (operand (expressionAt n)) (e.print true ++ rest) (e.Means rest)

/-- In a sum and on its own, the text of the expression is read as that expression. -/
structure Expr.ReadsBack (e : Expr) : Prop where
  asOperand : e.ReadsAsOperand
  begins : ∀ rest, afterGap (e.print false ++ rest) = e.print false ++ rest
  reads : ∀ n rest, ExprEnds rest → (e.print false).length < n →
    Reads (expressionAt n) (e.print false ++ rest) (e.Means rest)

/-- A filter that can be printed, with arguments that are read back. -/
structure FilterCall.ReadsBack (f : FilterCall Expr) : Prop where
  name : Lexeme.name? f.name.text.toList = some (f.name.text.toList, [])
  args : ∀ a ∈ f.args, a.ReadsBack

variable {rest : List Char} {n : Nat}

/-! ## Filters -/

theorem reads_filterArguments {args : List Expr} (hargs : ∀ a ∈ args, a.ReadsBack)
    (hrest : FilterEnds rest)
    (hn : (filterArguments (args.map (Expr.print false))).length ≤ n) :
    Reads (optional (named .filterArgs (bracketed '(' ')' (expressionAt n))))
      (afterGap (filterArguments (args.map (Expr.print false)) ++ rest)) fun o r =>
        (o.getD []).map Expr.bare = args.map Expr.bare ∧ afterGap r = afterGap rest := by
  cases args with
  | nil =>
    -- what follows a filter is not taken for its arguments
    have hnone : ∀ r, afterGap rest ≠ '(' :: r := by
      intro r h
      exact absurd (hrest.head_afterGap '(' (by rw [h]; rfl)) (by decide)
    exact Reads.optional_none (Fails.named (fails_bracketed hnone)) ⟨rfl, afterGap_afterGap rest⟩
  | cons a more =>
    have hlength : ∀ b ∈ a :: more, (b.print false).length < n := by
      intro b hb
      have hle := length_le_intercalate [',', ' '] (Expr.print false) hb
      rw [filterArguments_map_cons, List.length_cons, List.length_append] at hn
      exact Nat.lt_of_le_of_lt hle (Nat.lt_of_le_of_lt (Nat.le_add_right ..) hn)
    rw [filterArguments_map_cons, List.cons_append, List.append_assoc, List.singleton_append,
      afterGap_cons rfl]
    refine Reads.optional (Reads.named ((reads_bracketed (by decide)
      (fun b hb rest hends => (hargs b hb).reads n rest hends (hlength b hb))
      (fun b hb rest => (hargs b hb).begins rest)
      (fails_expressionAt n (by simp))).mono ?_))
    rintro as r ⟨has, rfl⟩
    exact ⟨has, rfl⟩

theorem FilterCall.ReadsBack.reads {f : FilterCall Expr} (h : f.ReadsBack)
    (hrest : FilterEnds rest) (hn : f.print.length ≤ n) :
    Reads (filter (expressionAt n)) (f.print ++ rest) fun f' r =>
      f'.bare = f.bare ∧ afterGap r = afterGap rest := by
  have hdelimited : Lexeme.Delimited
      (filterArguments (f.args.map (Expr.print false)) ++ rest) := by
    cases f.args with
    | nil => exact hrest.delimited
    | cons a more => exact Lexeme.delimited_cons (by decide) _
  have hlength : (filterArguments (f.args.map (Expr.print false))).length ≤ n := by
    rw [FilterCall.print, List.length_append] at hn
    exact Nat.le_trans (Nat.le_add_left ..) hn
  rw [FilterCall.print, List.cons_append, List.cons_append, List.append_assoc]
  show Reads _ ('|' :: ([] ++ (f.name.text.toList ++ _))) _
  refine reads_filter_of_parts Lexeme.gap_nil h.name hdelimited ?_
  refine (reads_filterArguments h.args hrest hlength).mono fun o r ho token span htoken => ?_
  refine ⟨?_, ho.2⟩
  show FilterCall.mk (Token.bare token) ((o.getD []).map Expr.bare) _ = f.bare
  rw [ho.1, Token.bare, htoken, String.ofList_toList]
  rfl

/-- Filters stand one behind the other, with nothing in between. -/
theorem series_filter {filters : List (FilterCall Expr)} (h : ∀ f ∈ filters, f.ReadsBack)
    (hn : (filters.flatMap FilterCall.print).length ≤ n) :
    Series (filter (expressionAt n)) FilterCall.bare FilterCall.bare FilterCall.print
      FilterCall.print afterGap (fun _ => FilterEnds) filters where
  begins := fun _ _ _ => rfl
  nonempty := fun _ _ h => by cases h
  follows := isChain_of_forall fun _ _ _ => Or.inr ⟨_, rfl⟩
  reads := fun f hf _ hrest =>
    (h f hf).reads hrest (Nat.le_trans (length_le_flatMap FilterCall.print hf) hn)

/-! ## Operands and sums -/

theorem Expr.bare_withFilters {e : Expr} {token : Token} {children : List Expr} {kind : Expr.Kind}
    {filters added : List (FilterCall Expr)} {span : Span}
    (h : e.bare = (node token children kind [] span).bare)
    (hadded : added.map FilterCall.bare = filters.map FilterCall.bare) (place : Span) :
    (e.withFilters added place).bare = (node token children kind filters span).bare := by
  obtain ⟨token', children', kind', filters', span'⟩ := e
  simp only [bare, bareFilters, bareFilters_eq_map, node.injEq] at h
  obtain ⟨htoken, hchildren, rfl, hfilters, -⟩ := h
  simp only [withFilters, bare, bareFilters_eq_map, List.map_append]
  rw [htoken, hchildren, hfilters, hadded, List.nil_append]

/-- An operand is a primary expression and its filters. -/
theorem reads_operand {token : Token} {children : List Expr} {kind : Expr.Kind}
    {filters : List (FilterCall Expr)} {span : Span} {text : List Char}
    (hprimary : Reads (primary (expressionAt n))
      (text ++ (filters.flatMap FilterCall.print ++ rest)) fun e r =>
        e.bare = (Expr.node token children kind [] span).bare ∧
          r = filters.flatMap FilterCall.print ++ rest)
    (hfilters : ∀ f ∈ filters, f.ReadsBack) (hrest : OperandEnds rest)
    (hn : (filters.flatMap FilterCall.print).length ≤ n) :
    Reads (operand (expressionAt n)) (text ++ (filters.flatMap FilterCall.print ++ rest))
      ((Expr.node token children kind filters span).Means rest) := by
  refine reads_operand_of_parts hprimary ?_
  rintro e r ⟨he, rfl⟩
  refine (reads_filters (series_filter hfilters hn) (fun _ _ => Or.inl hrest) hrest.ne_bar).mono
    fun o r ho span => ?_
  exact ⟨Expr.bare_withFilters he ho.1 span, ho.2⟩

/-- Operands with pluses in front are read as operands. -/
theorem series_plus {operands : List Expr} (h : ∀ e ∈ operands, e.ReadsAsOperand)
    (hn : ∀ e ∈ operands, (e.print true).length ≤ n) :
    Series (do let _ ← symbol '+'; let _ ← gap; operand (expressionAt n)) Expr.bare Expr.bare
      (fun e => ' ' :: '+' :: ' ' :: e.print true) (fun e => '+' :: ' ' :: e.print true) afterGap
      (fun _ => OperandEnds) operands where
  begins := fun _ _ _ => rfl
  nonempty := fun _ _ h => by cases h
  follows := isChain_of_forall fun _ _ _ => Or.inr ⟨_, rfl⟩
  reads := by
    intro e he rest hrest
    refine Reads.symbol_bind (Reads.gap_bind fun _ => ?_)
    show Reads _ (afterGap (e.print true ++ rest)) _
    rw [(h e he).begins]
    exact (h e he).reads n rest hrest (hn e he)

theorem filterEnds_flatMap (filters : List (FilterCall Expr)) (h : OperandEnds rest) :
    FilterEnds (filters.flatMap FilterCall.print ++ rest) :=
  forall_flatMap_append (fun _ _ _ => Or.inr ⟨_, rfl⟩) (Or.inl h)

/-- What operands make, up to places: a single one is left as it is, several are a sum. -/
def Expr.joined (first : Expr) : List Expr → Expr
  | [] => first.bare
  | second :: more =>
    .node ⟨"", .none⟩ ((first :: second :: more).map Expr.bare) .sum [] .none

/-- Operands with pluses between them are read as what they make. -/
theorem reads_expression {first : Expr} {more : List Expr}
    (h : ∀ e ∈ first :: more, e.ReadsAsOperand) (hrest : ExprEnds rest)
    (hn : ∀ e ∈ first :: more, (e.print true).length ≤ n) :
    Reads (expression (expressionAt n))
      (plusSeparated ((first :: more).map (Expr.print true)) ++ rest) fun e r =>
        e.bare = first.joined more ∧ afterGap r = afterGap rest := by
  have hseries := series_plus h hn
  have hends : OperandEnds rest := Or.inl hrest
  have hplus : ∀ r, afterGap rest ≠ '+' :: r := by
    intro r heq
    rw [hrest.afterGap_eq] at heq
    exact absurd (hrest '+' (by rw [heq]; rfl)) (by decide)
  rw [plusSeparated_map_cons, List.append_assoc]
  have hfirst := (h first (List.mem_cons_self ..)).reads n _
    (hseries.ends_flatMap fun _ _ => hends) (hn first (List.mem_cons_self ..))
  refine (reads_expression_of_series (takes_expressionAt n) hfirst hseries.tail
    (fun _ _ => hends) hplus).mono fun e r he => ⟨?_, he.2⟩
  generalize hx : first.bare = x at he
  generalize hxs : more.map Expr.bare = xs at he
  obtain ⟨hsummed, -⟩ := he
  cases hsummed with
  | single =>
    obtain rfl := List.map_eq_nil_iff.mp hxs
    exact hx.symm
  | @sum e second rest =>
    cases more with
    | nil => cases hxs
    | cons second' more =>
      simp only [Expr.plain, Expr.bare, Expr.bareAll_eq_map, Expr.bareFilters, Expr.joined,
        List.map_cons, hx] at hxs ⊢
      rw [hxs]
      rfl

/-! ## Primary expressions -/

variable {token : Token} {children : List Expr} {kind : Expr.Kind}
  {filters : List (FilterCall Expr)} {span : Span}

theorem Expr.bare_of_isLeaf (h : kind.hasText = true) {e : Expr} {r : List Char}
    (he : IsLeaf kind token.text.toList rest e r) :
    e.bare = (node token [] kind [] span).bare ∧ r = rest := by
  obtain ⟨⟨place, rfl⟩, rfl⟩ := he
  refine ⟨?_, rfl⟩
  simp [plain, bare, h, Token.bare, bareFilters]

theorem reads_list (h : ∀ e ∈ children, e.ReadsBack)
    (hn : ∀ e ∈ children, (e.print false).length < n) :
    Reads (Grammar.list (expressionAt n))
      ('[' :: (commaSeparated (children.map (Expr.print false)) ++ ']' :: rest)) fun e r =>
        e.bare = (Expr.node token children .list [] span).bare ∧ r = rest := by
  have hitems : Reads (bracketed '[' ']' (expressionAt n))
      ('[' :: (commaSeparated (children.map (Expr.print false)) ++ ']' :: rest)) fun es r =>
        es.map Expr.bare = children.map Expr.bare ∧ r = rest :=
    reads_bracketed (by decide)
      (fun e he rest hends => (h e he).reads n rest hends (hn e he))
      (fun e he rest => (h e he).begins rest)
      (fails_expressionAt n fun c hc => by cases hc; decide)
  refine Reads.located_bind (Reads.named hitems) ?_
  rintro es r place ⟨hes, rfl⟩
  refine Reads.pure ⟨?_, rfl⟩
  simp only [Expr.plain, Expr.bare, Expr.bareAll_eq_map, hes, Expr.bareFilters]
  rfl

/-- A sum on its own is read by one more than what its operands need. -/
theorem reads_sum (h : ∀ e ∈ children, e.ReadsAsOperand) (hchildren : 2 ≤ children.length)
    (hrest : ExprEnds rest) (hn : (plusSeparated (children.map (Expr.print true))).length < n) :
    Reads (expressionAt n) (plusSeparated (children.map (Expr.print true)) ++ rest)
      ((Expr.node token children .sum [] span).Means rest) := by
  obtain ⟨n, rfl⟩ := Nat.exists_eq_succ_of_ne_zero (Nat.ne_zero_of_lt hn)
  match children, hchildren with
  | first :: second :: more, _ =>
    have hlength : ∀ e ∈ first :: second :: more, (e.print true).length ≤ n := by
      intro e he
      have hle := length_le_intercalate [' ', '+', ' '] (Expr.print true) he
      exact Nat.le_trans hle (Nat.le_of_lt_succ hn)
    rw [expressionAt_succ]
    refine (reads_expression h hrest hlength).mono ?_
    rintro e r ⟨he, hend⟩
    refine ⟨?_, hend⟩
    rw [he, Expr.bare, Expr.bareAll_eq_map]
    rfl

theorem begins_sum (h : ∀ e ∈ children, e.ReadsAsOperand) (hchildren : 2 ≤ children.length)
    (rest : List Char) :
    afterGap (plusSeparated (children.map (Expr.print true)) ++ rest) =
      plusSeparated (children.map (Expr.print true)) ++ rest := by
  match children, hchildren with
  | first :: more, _ =>
    rw [plusSeparated_map_cons, List.append_assoc, (h first (List.mem_cons_self ..)).begins]

theorem reads_group (h : ∀ e ∈ children, e.ReadsAsOperand) (hchildren : 2 ≤ children.length)
    (hn : (plusSeparated (children.map (Expr.print true))).length < n) :
    Reads (group (expressionAt n))
      ('(' :: (plusSeparated (children.map (Expr.print true)) ++ ')' :: rest)) fun e r =>
        e.bare = (Expr.node token children .sum [] span).bare ∧ r = rest :=
  reads_group_of_inner Lexeme.gap_nil (begins_sum h hchildren) Lexeme.gap_nil
    (reads_sum h hchildren (exprEnds_cons (by decide) rest) hn)

/-- The text of one entry of a dict. -/
def printEntry (x : Expr × Expr) : List Char :=
  Lexeme.quoted x.1.token.text.toList ++ ':' :: ' ' :: x.2.print false

/-- Keys and values in turn are pairs, and are printed pair by pair. -/
theorem Expr.IsDict.exists_pairs :
    ∀ {children : List Expr}, Expr.IsDict children → ∃ pairs : List (Expr × Expr),
      children = pairs.flatMap (fun x => [x.1, x.2]) ∧
        (∀ x ∈ pairs, x.1.kind = .text ∧ x.1.children = [] ∧ x.1.filters = []) ∧
          Expr.printEntries children = pairs.map printEntry
  | [], _ => ⟨[], rfl, fun _ h => absurd h List.not_mem_nil, rfl⟩
  | [_], h => h.elim
  | key :: value :: rest, ⟨hkey, h⟩ => by
    obtain ⟨pairs, rfl, hpairs, hprint⟩ := h.exists_pairs
    refine ⟨(key, value) :: pairs, rfl, List.forall_mem_cons.mpr ⟨hkey, hpairs⟩, ?_⟩
    rw [Expr.printEntries, hprint]
    rfl

theorem reads_dictItem {x : Expr × Expr}
    (hkey : x.1.kind = .text ∧ x.1.children = [] ∧ x.1.filters = []) (h : x.2.ReadsBack)
    (hrest : ExprEnds rest) (hn : (x.2.print false).length < n) :
    Reads (dictItem (expressionAt n)) (printEntry x ++ rest) fun es r =>
      es.map Expr.bare = [x.1.bare, x.2.bare] ∧ afterGap r = afterGap rest := by
  obtain ⟨⟨token, children, kind, filters, span⟩, value⟩ := x
  obtain ⟨rfl, rfl, rfl⟩ := hkey
  rw [printEntry, List.append_assoc]
  refine Reads.named ?_
  refine Reads.bind (Reads.named (reads_nameToken (reads_stringOr_quotedIn (Or.inl rfl) _ _))) ?_
  rintro key r ⟨hkey, rfl⟩
  refine Reads.gap_bind fun _ => Reads.symbol_bind (Reads.gap_bind fun _ => ?_)
  show Reads _ (afterGap (value.print false ++ rest)) _
  rw [h.begins]
  refine Reads.bind (h.reads n rest hrest hn) fun e r he => Reads.pure ⟨?_, he.2⟩
  rw [List.map_cons, List.map_singleton, he.1]
  simp [Expr.plain, Expr.bare, Expr.bareAll, Expr.bareFilters, Token.bare, hkey, Expr.token]

theorem fails_dictItem (rest : List Char) :
    Fails (dictItem (expressionAt n)) ('\x7d' :: rest) := by
  have hstring : Fails stringLiteral ('\x7d' :: rest) := fails_stringLiteral rfl
  have hname : Fails (lexical .name Lexeme.name?) ('\x7d' :: rest) :=
    Fails.named (Fails.lexeme rfl)
  have hkey : Fails dictKey ('\x7d' :: rest) :=
    Fails.named (Fails.located (hstring.map.orElse hname)).bind
  exact Fails.named hkey.bind

theorem reads_dict (hdict : Expr.IsDict children) (h : ∀ e ∈ children, e.ReadsBack)
    (hn : (commaSeparated (Expr.printEntries children)).length < n) :
    Reads (Grammar.dict (expressionAt n))
      ('\x7b' :: (commaSeparated (Expr.printEntries children) ++ '\x7d' :: rest)) fun e r =>
        e.bare = (Expr.node token children .dict [] span).bare ∧ r = rest := by
  obtain ⟨pairs, hpairs, hkeys, hprint⟩ := hdict.exists_pairs
  have hvalues : ∀ x ∈ pairs, x.2.ReadsBack := by
    intro x hx
    refine h x.2 ?_
    rw [hpairs]
    exact List.mem_flatMap.mpr ⟨x, hx, List.mem_cons_of_mem _ (List.mem_singleton_self _)⟩
  have hlength : ∀ x ∈ pairs, (x.2.print false).length < n := by
    intro x hx
    have hle := length_le_intercalate [',', ' '] printEntry hx
    rw [hprint, commaSeparated] at hn
    rw [printEntry, List.length_append, List.length_cons, List.length_cons] at hle
    omega
  have hentries : Reads (bracketed '\x7b' '\x7d' (dictItem (expressionAt n)))
      ('\x7b' :: (commaSeparated (pairs.map printEntry) ++ '\x7d' :: rest)) fun es r =>
        es.map (List.map Expr.bare) = pairs.map (fun x => [x.1.bare, x.2.bare]) ∧ r = rest :=
    reads_bracketed (by decide)
      (fun x hx rest hends => reads_dictItem (hkeys x hx) (hvalues x hx) hends (hlength x hx))
      (fun x hx rest => rfl) (fails_dictItem rest)
  rw [hprint]
  refine Reads.located_bind (Reads.named hentries) ?_
  rintro es r place ⟨hes, rfl⟩
  have hflatten : es.flatten.map Expr.bare = children.map Expr.bare := by
    rw [List.map_flatten, hes, hpairs, List.map_flatMap, List.flatMap_def]
    rfl
  refine Reads.pure ⟨?_, rfl⟩
  simp only [Expr.plain, Expr.bare, Expr.bareAll_eq_map, hflatten, Expr.bareFilters]
  rfl

theorem reads_primary (hadmits : kind.Admits token.text.toList children)
    (h : ∀ e ∈ children, e.ReadsBack) (hrest : Lexeme.Delimited rest)
    (hn : (Expr.printPrimary token children kind).length ≤ n) :
    Reads (primary (expressionAt n)) (Expr.printPrimary token children kind ++ rest) fun e r =>
      e.bare = (Expr.node token children kind [] span).bare ∧ r = rest := by
  have hgroup : ∀ {c : Char} {r : List Char}, c ≠ '(' → Fails (group (expressionAt n)) (c :: r) :=
    fun hc => fails_group fun _ heq => hc (List.cons.inj heq).1
  cases kind with
  | int =>
    obtain ⟨htoken, rfl⟩ := hadmits
    exact (reads_primary_int htoken hrest).mono fun _ _ => Expr.bare_of_isLeaf rfl
  | float =>
    obtain ⟨htoken, rfl⟩ := hadmits
    exact (reads_primary_float htoken hrest).mono fun _ _ => Expr.bare_of_isLeaf rfl
  | bool =>
    obtain ⟨htoken, rfl⟩ := hadmits
    exact (reads_primary_bool htoken hrest).mono fun _ _ => Expr.bare_of_isLeaf rfl
  | null =>
    obtain ⟨htoken, rfl⟩ := hadmits
    exact (reads_primary_null htoken hrest).mono fun _ _ => Expr.bare_of_isLeaf rfl
  | path =>
    obtain ⟨htoken, hfirst, rfl⟩ := hadmits
    exact (reads_primary_path htoken hfirst hrest).mono fun _ _ => Expr.bare_of_isLeaf rfl
  | text =>
    obtain rfl : children = [] := hadmits
    exact (reads_primary_text (Or.inl rfl) _).mono fun _ _ => Expr.bare_of_isLeaf rfl
  | list =>
    rw [Expr.printPrimary, List.length_cons, List.length_append] at hn
    rw [Expr.printPrimary, List.cons_append, List.append_assoc, List.singleton_append]
    refine Reads.right (hgroup (by decide)) (Reads.left (reads_list h fun e he => ?_))
    have hle := length_le_intercalate [',', ' '] (Expr.print false) he
    rw [commaSeparated] at hn
    omega
  | dict =>
    rw [Expr.printPrimary, List.length_cons, List.length_append] at hn
    rw [Expr.printPrimary, List.cons_append, List.append_assoc, List.singleton_append]
    refine Reads.right (hgroup (by decide)) (Reads.right ?_ (Reads.left ?_))
    · exact fails_list fun r heq => absurd (List.cons.inj heq).1 (by decide)
    · exact reads_dict hadmits h (by omega)
  | sum =>
    rw [Expr.printPrimary, List.length_cons, List.length_append] at hn
    rw [Expr.printPrimary, List.cons_append, List.append_assoc, List.singleton_append]
    exact Reads.left (reads_group (fun e he => (h e he).asOperand) hadmits (by omega))

/-- No primary expression is empty or begins with a gap. -/
theorem head_printPrimary (hadmits : kind.Admits token.text.toList children) :
    ∃ c r, Expr.printPrimary token children kind = c :: r ∧ Lexeme.isGap c = false := by
  have hstart : ∀ {c : Char}, Lexeme.isNameStart c = true → Lexeme.isGap c = false :=
    fun hc => Lexeme.isGap_of_isNameChar (Lexeme.isNameChar_of_isNameStart hc)
  have hword : ∀ {w : String}, w ∈ Lexeme.reservedWords → token.text.toList = w.toList →
      ∃ c r, token.text.toList = c :: r ∧ Lexeme.isGap c = false := by
    intro w hw heq
    obtain ⟨c, r, hhead, hc⟩ := Lexeme.head_of_word hw
    exact ⟨c, r, heq.trans hhead, hstart hc⟩
  cases kind with
  | int =>
    obtain ⟨c, r, heq, hc⟩ :=
      Lexeme.head_of_signedDigits? (Lexeme.wholeWord_eq_some_iff.mp hadmits.1).1
    exact ⟨c, r, heq, Lexeme.isGap_of_number hc⟩
  | float =>
    obtain ⟨c, r, heq, hc⟩ := Lexeme.head_of_float? hadmits.1
    exact ⟨c, r, heq, Lexeme.isGap_of_number hc⟩
  | bool =>
    obtain ⟨w, hw, heq, -⟩ := Lexeme.word?_eq_some hadmits.1
    exact hword (List.mem_append_left _ hw) heq
  | null =>
    obtain ⟨w, hw, heq, -⟩ := Lexeme.word?_eq_some hadmits.1
    exact hword (List.mem_append_right ["true", "false", "True", "False"] hw) heq
  | path =>
    obtain ⟨c, r, heq, hc⟩ := Lexeme.head_of_path? hadmits.1
    exact ⟨c, r, heq, hstart hc⟩
  | text => exact ⟨_, _, rfl, rfl⟩
  | list => exact ⟨_, _, rfl, rfl⟩
  | dict => exact ⟨_, _, rfl, rfl⟩
  | sum => exact ⟨_, _, rfl, rfl⟩

theorem begins_primary (hadmits : kind.Admits token.text.toList children) (rest : List Char) :
    afterGap (Expr.printPrimary token children kind ++ rest) =
      Expr.printPrimary token children kind ++ rest := by
  obtain ⟨c, r, heq, hgap⟩ := head_printPrimary hadmits
  rw [heq]
  exact afterGap_cons hgap _

/-! ## All expressions -/

/-- One level of an expression: if its parts and the arguments of its filters are read back, so is
the expression. -/
theorem Expr.readsBack_node (hadmits : kind.Admits token.text.toList children)
    (hchildren : ∀ e ∈ children, e.ReadsBack) (hfilters : ∀ f ∈ filters, f.ReadsBack) :
    (Expr.node token children kind filters span).ReadsBack := by
  have hoperand : (Expr.node token children kind filters span).ReadsAsOperand := by
    refine ⟨fun rest => ?_, fun n rest hrest hn => ?_⟩
    · rw [print_operand, List.append_assoc]
      exact begins_primary hadmits _
    · rw [print_operand, List.length_append] at hn
      rw [print_operand, List.append_assoc]
      have hchain : (filters.flatMap FilterCall.print).length ≤ n :=
        Nat.le_trans (Nat.le_add_left ..) hn
      have hends := filterEnds_flatMap filters hrest
      exact reads_operand
        (reads_primary hadmits hchildren hends.delimited (Nat.le_trans (Nat.le_add_right ..) hn))
        hfilters hrest hchain
  -- only a sum without filters has two texts
  by_cases hsum : kind = .sum → filters ≠ []
  · have hprint : (Expr.node token children kind filters span).print false =
        (Expr.node token children kind filters span).print true := by
      rw [print_of_ne_sum hsum, print_operand]
    refine ⟨hoperand, fun rest => ?_, fun n rest hrest hn => ?_⟩
    · rw [hprint]
      exact hoperand.begins rest
    · obtain ⟨n, rfl⟩ := Nat.exists_eq_succ_of_ne_zero (Nat.ne_zero_of_lt hn)
      rw [hprint] at hn ⊢
      have hself : ∀ e ∈ [Expr.node token children kind filters span], e.ReadsAsOperand :=
        List.forall_mem_singleton.mpr hoperand
      have hone := reads_expression hself hrest
        (List.forall_mem_singleton.mpr (Nat.le_of_lt_succ hn))
      rw [List.map_singleton, plusSeparated, List.intercalate_singleton] at hone
      rw [expressionAt_succ]
      exact hone
  · obtain ⟨rfl, hnil⟩ := Classical.not_imp.mp hsum
    obtain rfl : filters = [] := Classical.not_not.mp hnil
    have hoperands : ∀ e ∈ children, e.ReadsAsOperand := fun e he => (hchildren e he).asOperand
    refine ⟨hoperand, fun rest => ?_, fun n rest hrest hn => ?_⟩
    · rw [print_sum]
      exact begins_sum hoperands hadmits rest
    · rw [print_sum] at hn ⊢
      exact reads_sum hoperands hadmits hrest hn

mutual

/-- The text of every expression that the language can write is read as that expression. -/
theorem Expr.readsBack : ∀ {e : Expr}, e.Printable → e.ReadsBack
  | .node _ children _ filters _, h =>
    Expr.readsBack_node h.1 (Expr.readsBack_of_mem children h.2.1)
      (Expr.readsBack_filters filters h.2.2)

theorem Expr.readsBack_of_mem :
    ∀ (es : List Expr), Expr.PrintableAll es → ∀ e ∈ es, e.ReadsBack
  | [], _ => fun _ he => absurd he List.not_mem_nil
  | _ :: rest, h =>
    List.forall_mem_cons.mpr ⟨Expr.readsBack h.1, Expr.readsBack_of_mem rest h.2⟩

theorem Expr.readsBack_filters :
    ∀ (filters : List (FilterCall Expr)), Expr.PrintableFilters filters →
      ∀ f ∈ filters, f.ReadsBack
  | [], _ => fun _ hf => absurd hf List.not_mem_nil
  | ⟨_, args, _⟩ :: rest, h =>
    List.forall_mem_cons.mpr
      ⟨⟨h.1, Expr.readsBack_of_mem args h.2.1⟩, Expr.readsBack_filters rest h.2.2⟩

end

end TagTemplate
