import TagTemplate.Proofs.Expression.Alone
import TagTemplate.Proofs.Expression.ReadsBack

/-!
# Reading undoes printing

> `Argument.readList_printList`: the canonical text of every argument list that the language can
> write is read as that list, up to places and the source of lists, dicts and sums.

An argument is first tried as one with a key. A value on its own can begin with what would be a key,
a string or a name, but no equals sign ever follows that (`fails_keyed`), so the reader comes back
and reads the value from its beginning.
-/

namespace TagTemplate

open Reader Grammar

variable {rest : List Char} {n : Nat}

/-! ## Values that are no keys -/

/-- A primary expression is no key, or there is no equals sign behind it. -/
theorem key_primary {token : Token} {children : List Expr} {kind : Expr.Kind}
    (hadmits : kind.Admits token.text.toList children) (hrest : FilterEnds rest) :
    NoKey (Expr.printPrimary token children kind ++ rest) := by
  have hequals : ∀ s, afterGap rest ≠ '=' :: s := by
    intro s hs
    exact absurd (hrest.head_afterGap '=' (by rw [hs]; rfl)) (by decide)
  cases kind with
  | int => exact (Lexeme.IsLiteral.int hadmits.1).noKey hrest.delimited hequals
  | float => exact (Lexeme.IsLiteral.float hadmits.1).noKey hrest.delimited hequals
  | bool => exact (Lexeme.IsLiteral.bool hadmits.1).noKey hrest.delimited hequals
  | null => exact (Lexeme.IsLiteral.null hadmits.1).noKey hrest.delimited hequals
  | path =>
    obtain ⟨hpath, hfirst, -⟩ := hadmits
    have hwords := Lexeme.words_eq_none_of_path? (Lexeme.delimited_of_isGap Lexeme.gap_nil) hpath
      hfirst
    rw [List.append_nil] at hwords
    exact (Lexeme.IsLiteral.path hwords.1 hwords.2 hpath).noKey hrest.delimited hequals
  | text => exact noKey_string (Or.inl rfl) (Lexeme.inside_escapedIn '"' _) hequals
  | list => exact Or.inl (fails_key (by decide) (by decide) rfl _)
  | dict => exact Or.inl (fails_key (by decide) (by decide) rfl _)
  | sum => exact Or.inl (fails_key (by decide) (by decide) rfl _)

/-- A printed expression begins with a primary expression. -/
theorem Expr.Printable.exists_primary {e : Expr} (h : e.Printable) (hrest : ExprEnds rest) :
    ∃ token children kind tail, Expr.Kind.Admits kind token.text.toList children ∧
      FilterEnds tail ∧ e.print false ++ rest = Expr.printPrimary token children kind ++ tail := by
  obtain ⟨token, children, kind, filters, span⟩ := e
  obtain ⟨hadmits, hchildren, -⟩ := h
  by_cases hsum : kind = .sum → filters ≠ []
  · -- the expression itself is primary, up to its filters
    refine ⟨token, children, kind, _, hadmits, filterEnds_flatMap filters (Or.inl hrest), ?_⟩
    rw [Expr.print_of_ne_sum hsum, List.append_assoc]
  · -- a sum begins with its first operand
    obtain ⟨rfl, hnil⟩ := Classical.not_imp.mp hsum
    obtain rfl : filters = [] := Classical.not_not.mp hnil
    match children, hadmits with
    | ⟨token, parts, kind, filters, _⟩ :: more, _ =>
      have hends : OperandEnds
          ((more.flatMap fun e => ' ' :: '+' :: ' ' :: e.print true) ++ rest) := by
        cases more with
        | nil => exact Or.inl hrest
        | cons _ _ => exact Or.inr ⟨_, rfl⟩
      refine ⟨token, parts, kind, _, hchildren.1.1, filterEnds_flatMap filters hends, ?_⟩
      rw [Expr.print_sum, plusSeparated_map_cons, Expr.print_operand, List.append_assoc,
        List.append_assoc]

/-- A value on its own is not taken for a key with a value. -/
theorem fails_keyed {α : Type} {e : Expr} (h : e.Printable) (hrest : ExprEnds rest)
    {f : Token → List Char → Reader α} :
    Fails (do let name ← key; let _ ← gap; let equals ← symbol '='; f name equals)
      (e.print false ++ rest) := by
  obtain ⟨token, children, kind, tail, hadmits, htail, heq⟩ := h.exists_primary hrest
  rw [heq]
  exact (key_primary hadmits htail).fails

/-! ## Arguments -/

theorem Argument.print_of_key {a : Argument} {k : Token} (h : a.key = some k) :
    a.print = Lexeme.quoted k.text.toList ++ '=' :: a.value.print false := by
  rw [Argument.print, h]

theorem Argument.print_of_none {a : Argument} (h : a.key = none) :
    a.print = a.value.print false := by
  rw [Argument.print, h]

/-- A printed argument begins with no gap. -/
theorem begins_argument {a : Argument} (ha : a.Printable) (rest : List Char) :
    afterGap (a.print ++ rest) = a.print ++ rest := by
  cases hkey : a.key with
  | some k =>
    rw [Argument.print_of_key hkey]
    rfl
  | none =>
    rw [Argument.print_of_none hkey]
    exact (Expr.readsBack ha.2).begins rest

/-- What is read of an argument is its key, or none, and its value. -/
theorem reads_argument_of_parts {inner : Reader Expr} {cs : List Char}
    {post : Argument → List Char → Prop}
    (h : Reads
      ((do
          let name ← key
          let _ ← gap
          let _ ← symbol '='
          let _ ← gap
          let value ← expression inner
          pure (some name, value))
        <|> (do let value ← expression inner; pure (none, value)))
      cs fun x r => ∀ span, post ⟨x.1, x.2, span⟩ r) :
    Reads (argument inner) cs post :=
  Reads.named (Reads.located_bind h fun _ _ _ hx => Reads.pure (hx _))

/-- Key and value are read as they were, if there is a key, and the value alone if there is none. -/
theorem reads_argument {a : Argument} (ha : a.Printable) (hrest : ExprEnds rest)
    (hn : a.print.length ≤ n) :
    Reads (argument (expressionAt n)) (a.print ++ rest) fun a' r =>
      a'.bare = a.bare ∧ afterGap r = afterGap rest := by
  have hback : a.value.ReadsBack := Expr.readsBack ha.2
  have hvalue : (a.value.print false).length ≤ n →
      Reads (expression (expressionAt n)) (a.value.print false ++ rest) (a.value.Means rest) := by
    intro hlength
    rw [← expressionAt_succ]
    exact hback.reads (n + 1) rest hrest (Nat.lt_succ_of_le hlength)
  cases hkey : a.key with
  | some k =>
    rw [Argument.print_of_key hkey, List.length_append, List.length_cons] at hn
    rw [Argument.print_of_key hkey, List.append_assoc, List.cons_append]
    refine reads_argument_of_parts (Reads.left
      (Reads.bind (Reads.named (reads_nameToken (reads_stringOr_quotedIn (Or.inl rfl) _ _))) ?_))
    rintro token r ⟨htoken, rfl⟩
    refine Reads.gap_bind fun _ => Reads.symbol_bind (Reads.gap_bind fun _ => ?_)
    rw [hback.begins]
    refine Reads.bind (hvalue (by omega)) fun e r he => Reads.pure fun _ => ⟨?_, he.2⟩
    rw [Argument.bare, Argument.bare, hkey, he.1, Option.map_some, Option.map_some, Token.bare,
      Token.bare, htoken, String.ofList_toList]
  | none =>
    rw [Argument.print_of_none hkey] at hn
    rw [Argument.print_of_none hkey]
    refine reads_argument_of_parts (Reads.right (fails_keyed ha.2 hrest) ?_)
    refine Reads.bind (hvalue hn) fun e r he => Reads.pure fun _ => ⟨?_, he.2⟩
    rw [Argument.bare, Argument.bare, hkey, he.1]

/-- No argument begins at the end of the text. -/
theorem fails_argument_nil {inner : Reader Expr} : Fails (argument inner) [] := by
  have hstring : Fails stringLiteral [] := fails_stringLiteral rfl
  have hplain : Fails (lexical .attrName Lexeme.dashedName?) [] := Fails.named (Fails.lexeme rfl)
  have hkey : Fails key [] := Fails.named (Fails.located (hstring.map.orElse hplain)).bind
  have hvalue : Fails (expression inner) [] := fails_expression fun c hc => by cases hc
  exact Fails.named (Fails.located (hkey.bind.orElse hvalue.bind)).bind

/-! ## Argument lists -/

section Separated

variable {β γ : Type} {inner : Reader Expr} {f : Argument → γ} {g : β → γ} {text : β → List Char}
  {separator : List Char} {ends : β → List Char → Prop} {items : List β}

/-- Arguments with separators in front are read as arguments, if the way over a separator leads to
the argument behind it. -/
theorem series_argument (hne : separator ≠ [])
    (hcomma : ∀ b ∈ items, ∀ rest, afterComma (separator ++ text b ++ rest) = text b ++ rest)
    (hfollows : items.IsChain fun b b' => ∀ rest, ends b (separator ++ text b' ++ rest))
    (hreads : ∀ b ∈ items, ∀ rest, ends b rest → Reads (argument inner) (text b ++ rest)
      fun a r => f a = g b ∧ afterGap r = afterGap rest) :
    Series (do
        let a ← argument inner
        let _ ← gap
        let _ ← optional (symbol ',')
        pure a)
      f g (fun b => separator ++ text b) text afterComma ends items where
  begins := hcomma
  nonempty := fun _ _ hnil => hne (List.append_eq_nil_iff.mp hnil).1
  follows := hfollows
  reads := by
    intro b hb rest hrest
    refine (hreads b hb rest hrest).bind fun a r ha => Reads.gap_bind fun _ => ?_
    rw [ha.2]
    exact (reads_comma rest).bind fun _ r hr => Reads.pure ⟨ha.1, hr⟩

/-- Arguments with separators between them are read argument by argument. -/
theorem reads_signature_of_series
    (hseries : Series (do
        let a ← argument inner
        let _ ← gap
        let _ ← optional (symbol ',')
        pure a)
      f g (fun b => separator ++ text b) text afterComma ends items)
    (hgap : ∀ b ∈ items, ∀ rest, afterGap (text b ++ rest) = text b ++ rest)
    (hends : ∀ b ∈ items.getLast?, ends b []) :
    Reads (signature inner) (List.intercalate separator (items.map text)) fun args _ =>
      args.map f = items.map g := by
  have hstart : afterGap (List.intercalate separator (items.map text)) =
      afterComma (items.flatMap (fun b => separator ++ text b) ++ []) := by
    cases items with
    | nil => rfl
    | cons b more =>
      rw [hseries.next_cons, List.map_cons, intercalate_cons, List.flatMap_map, List.append_nil]
      exact hgap b (List.mem_cons_self ..) _
  refine Reads.named (Reads.gap_bind fun _ => ?_)
  refine (hseries.spaced hends fails_argument_nil.bind rfl hstart).bind fun args r hargs => ?_
  refine Reads.gap_bind fun _ => ?_
  rw [hargs.2]
  exact Reads.bind Reads.endOfInput fun _ _ _ => Reads.pure hargs.1

end Separated

/-- A printed list is read argument by argument. -/
theorem reads_signature {args : List Argument} (h : ∀ a ∈ args, a.Printable)
    (hn : (commaSeparated (args.map Argument.print)).length ≤ n) :
    Reads (signature (expressionAt n)) (commaSeparated (args.map Argument.print)) fun args' _ =>
      args'.map Argument.bare = args.map Argument.bare := by
  have hbegins : ∀ a ∈ args, ∀ rest, afterGap (a.print ++ rest) = a.print ++ rest :=
    fun a ha rest => begins_argument (h a ha) rest
  have hseries : Series (do
        let a ← argument (expressionAt n)
        let _ ← gap
        let _ ← optional (symbol ',')
        pure a)
      Argument.bare Argument.bare (fun a => [',', ' '] ++ a.print) Argument.print afterComma
      (fun _ => ExprEnds) args := by
    refine series_argument (List.cons_ne_nil _ _) hbegins
      (isChain_of_forall fun _ _ _ => exprEnds_cons (by decide) _) fun a ha rest hrest => ?_
    exact reads_argument (h a ha) hrest
      (Nat.le_trans (length_le_intercalate [',', ' '] Argument.print ha) hn)
  exact reads_signature_of_series hseries hbegins fun _ _ => exprEnds_nil

/-- What a reader takes of a text is read, if only the result matters. -/
theorem Reader.Reads.readAll {α : Type} {p : Reader Expr → Reader α} {text : String}
    {post : α → List Char → Prop}
    (h : Reads (p (expressionAt (text.toList.length + 1))) text.toList post) :
    ∃ a r, Reader.readAll p text = .ok a ∧ post a r := by
  obtain ⟨a, d, hread, hpost⟩ := h .start
  refine ⟨a, d.rest, ?_, hpost⟩
  unfold Reader.read? at hread
  unfold Reader.readAll
  simp only [hread]

/-- Is there a key that is empty? -/
def Argument.anyEmptyKey (args : List Argument) : Bool :=
  args.any fun a => a.key.any (·.text.isEmpty)

/-- Whether a key is empty does not depend on places. -/
theorem Argument.anyEmptyKey_map_bare (args : List Argument) :
    anyEmptyKey (args.map Argument.bare) = anyEmptyKey args := by
  unfold anyEmptyKey
  rw [List.any_map]
  congr 1
  funext a
  cases hkey : a.key <;> simp [Argument.bare, hkey, Token.bare]

theorem Argument.anyEmptyKey_of_printable {args : List Argument} (h : ∀ a ∈ args, a.Printable) :
    anyEmptyKey args = false := by
  unfold anyEmptyKey
  rw [List.any_eq_false]
  intro a ha hempty
  rw [Option.any_eq_true] at hempty
  obtain ⟨key, hkey, htext⟩ := hempty
  exact (h a ha).1 key hkey (String.isEmpty_iff.mp htext)

/-- The canonical text of every argument list that the language can write is read as that list. -/
theorem Argument.readList_printList {args : List Argument} (h : ∀ a ∈ args, a.Printable) :
    ∃ args', Argument.readList (Argument.printList args) = .ok args' ∧
      args'.map Argument.bare = args.map Argument.bare := by
  have hsignature : Reads (signature (expressionAt ((printList args).toList.length + 1)))
      (printList args).toList fun args' _ => args'.map Argument.bare = args.map Argument.bare := by
    rw [printList, String.toList_ofList]
    exact reads_signature h (Nat.le_succ _)
  obtain ⟨args', _, hread, hbare⟩ := hsignature.readAll
  refine ⟨args', ?_, hbare⟩
  -- nothing is left to check but that no key is empty
  have hkeys : anyEmptyKey args' = false := by
    rw [← anyEmptyKey_map_bare, hbare, anyEmptyKey_map_bare, anyEmptyKey_of_printable h]
  unfold readList
  rw [hread]
  exact if_neg (Bool.eq_false_iff.mp hkeys)

/-- An expression without parts and without a place. -/
def sampleLeaf (text : String) (kind : Expr.Kind) : Expr :=
  .node ⟨text, .none⟩ [] kind [] .none

/-- Filters on a string, one of them with arguments. -/
def sampleFilters : List (FilterCall Expr) :=
  [⟨⟨"upper", .none⟩, [], .none⟩,
    ⟨⟨"default", .none⟩,
      [sampleLeaf "-2.5" .float,
        .node ⟨"", .none⟩ [sampleLeaf "None" .null, sampleLeaf "x.0" .path] .list [] .none], .none⟩]

/-- A sum of a sum with a filter and of a dict. -/
def sampleSum : Expr :=
  .node ⟨"", .none⟩
    [.node ⟨"", .none⟩ [sampleLeaf "x" .path, sampleLeaf "12" .int] .sum
        [⟨⟨"first", .none⟩, [], .none⟩] .none,
      .node ⟨"", .none⟩ [sampleLeaf "k" .text, sampleLeaf "true" .bool] .dict [] .none]
    .sum [] .none

/-- A string with quotes under a key with a blank, and a value on its own. -/
def sampleArguments : List Argument :=
  [⟨some ⟨"a key", .none⟩, .node ⟨"\"\\", .none⟩ [] .text sampleFilters .none, .none⟩,
    ⟨none, sampleSum, .none⟩]

/-- Keys, strings, filters, sums and dicts in one text. -/
theorem Argument.readList_sampleArguments :
    Argument.printList sampleArguments =
        "\"a key\"=\"\\\"\\\\\"|upper|default(-2.5, [None, x.0]), " ++
          "(x + 12)|first + \x7b\"k\": true\x7d" ∧
      ∃ args, Argument.readList (Argument.printList sampleArguments) = .ok args ∧
        args.map Argument.bare = sampleArguments.map Argument.bare := by
  refine ⟨by decide, readList_printList ?_⟩
  decide

end TagTemplate
