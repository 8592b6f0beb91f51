import TagTemplate.Proofs.Expression.Print
import TagTemplate.Proofs.Expression.Reads
import TagTemplate.Proofs.Expression.Takes

/-!
# The rules of the argument language on a given text

A rule of the language takes what was written for it only if the text behind cannot be taken for
more of it. In printed text nothing, a comma or a closing bracket comes behind an expression
(`ExprEnds`); behind an operand also a plus (`OperandEnds`), and behind a filter also a bar
(`FilterEnds`). Behind a filter nothing can begin its arguments, behind an operand nothing can begin a
filter, and behind an expression nothing can begin an operand: this keeps the optional parts of a rule
from reaching into their neighbours.

There is a lemma for each rule that has parts. It takes for granted what is read of these parts, and
that repeated parts are a series; what the parts look like and what ends them is left to those who
have a text at hand, printed or taken from elsewhere.

> `reads_bracketed_of_series`: items between brackets are read one by one if they are a series.
> `reads_operand_of_parts`, `reads_expression_of_series`: so are filters and the operands of a sum.
> `reads_bracketed`: printed items are a series, if each of them is read in front of a comma or of a
> closing bracket.
-/

namespace TagTemplate.Grammar

open Reader
open Lexeme (Gap MayHaveComma)

/-! ## What can follow an expression -/

/-- The text is empty or goes on with a comma or a closing bracket. -/
def ExprEnds (cs : List Char) : Prop :=
  ∀ c ∈ cs.head?, c ∈ [',', ')', ']', '\x7d']

/-- As behind an expression, or with a further operand. -/
def OperandEnds (cs : List Char) : Prop :=
  ExprEnds cs ∨ ∃ r, cs = ' ' :: '+' :: r

/-- As behind an operand, or with a further filter. -/
def FilterEnds (cs : List Char) : Prop :=
  OperandEnds cs ∨ ∃ r, cs = '|' :: r

variable {cs rest : List Char}

theorem exprEnds_nil : ExprEnds [] :=
  fun _ h => by cases h

theorem exprEnds_cons {c : Char} (h : c ∈ [',', ')', ']', '\x7d']) (cs : List Char) :
    ExprEnds (c :: cs) :=
  fun _ hd => Option.some.inj hd ▸ h

theorem ExprEnds.afterGap_eq (h : ExprEnds cs) : afterGap cs = cs := by
  cases cs with
  | nil => rfl
  | cons c cs =>
    have hgap : ∀ d ∈ [',', ')', ']', '\x7d'], Lexeme.isGap d = false := by simp [Lexeme.isGap]
    exact afterGap_cons (hgap c (h c rfl)) cs

theorem OperandEnds.head_afterGap (h : OperandEnds cs) :
    ∀ c ∈ (afterGap cs).head?, c ∈ [',', ')', ']', '\x7d', '+'] := by
  rcases h with h | ⟨r, rfl⟩
  · rw [h.afterGap_eq]
    intro c hc
    exact List.mem_append_left ['+'] (h c hc)
  · intro c hc
    cases hc
    decide

theorem OperandEnds.ne_bar (h : OperandEnds cs) : ∀ r, afterGap cs ≠ '|' :: r := by
  intro r heq
  exact absurd (h.head_afterGap '|' (by rw [heq]; rfl)) (by decide)

theorem FilterEnds.head_afterGap (h : FilterEnds cs) :
    ∀ c ∈ (afterGap cs).head?, c ∈ [',', ')', ']', '\x7d', '+', '|'] := by
  rcases h with h | ⟨r, rfl⟩
  · intro c hc
    exact List.mem_append_left ['|'] (h.head_afterGap c hc)
  · intro c hc
    cases hc
    decide

theorem FilterEnds.delimited (h : FilterEnds cs) : Lexeme.Delimited cs := by
  rcases h with (h | ⟨r, rfl⟩) | ⟨r, rfl⟩
  · have hmem : ∀ c ∈ [',', ')', ']', '\x7d'], c ∈ Lexeme.delimiters := by simp [Lexeme.delimiters]
    exact fun c hc => hmem c (h c hc)
  · exact Lexeme.delimited_cons (by decide) _
  · exact Lexeme.delimited_cons (by decide) _

theorem afterGap_afterGap (cs : List Char) : afterGap (afterGap cs) = afterGap cs := by
  induction cs with
  | nil => rfl
  | cons c cs ih =>
    by_cases hc : Lexeme.isGap c = true
    · rw [show afterGap (c :: cs) = afterGap cs from List.dropWhile_cons_of_pos hc, ih]
    · have hself := afterGap_cons (Bool.eq_false_iff.mpr hc) cs
      rw [hself, hself]

/-! ## Commas -/

/-- A gap is passed over with the text behind it. -/
theorem afterGap_append {blanks : List Char} (h : Gap blanks) (cs : List Char) :
    afterGap (blanks ++ cs) = afterGap cs :=
  List.dropWhile_append_of_pos h

theorem afterGap_of_gap {blanks : List Char} (h : Gap blanks) : afterGap blanks = [] := by
  rw [← List.append_nil blanks, afterGap_append h]
  rfl

/-- A text from where an argument list goes on, over a comma and the gaps around it. -/
def afterComma (cs : List Char) : List Char :=
  match afterGap cs with
  | ',' :: r => afterGap r
  | r => r

/-- A comma behind an argument is taken, and nothing else is. -/
theorem reads_comma (cs : List Char) :
    Reads (optional (symbol ',')) (afterGap cs) fun _ r => afterGap r = afterComma cs := by
  unfold afterComma
  split
  next r heq =>
    rw [heq]
    exact Reads.optional (Reads.symbol rfl)
  next hne =>
    exact Reads.optional_none (Fails.symbol hne) (afterGap_afterGap cs)

theorem afterComma_of_ne {cs r : List Char} {c : Char} (h : afterGap cs = c :: r) (hc : c ≠ ',') :
    afterComma cs = c :: r := by
  unfold afterComma
  rw [h]
  split
  next heq => exact absurd (List.cons.inj heq).1 hc
  next => rfl

/-- A comma with gaps around it is passed over, and so is a gap without a comma. -/
theorem afterComma_append {tail : List Char} {c : Char} (h : MayHaveComma tail)
    (hgap : Lexeme.isGap c = false) (hc : c ≠ ',') (cs : List Char) :
    afterComma (tail ++ c :: cs) = c :: cs := by
  rcases h with htail | ⟨before, after, hbefore, hafter, rfl⟩
  · refine afterComma_of_ne ?_ hc
    rw [afterGap_append htail, afterGap_cons hgap]
  · have hcomma : afterGap (before ++ ([','] ++ after) ++ c :: cs) = ',' :: (after ++ c :: cs) := by
      rw [List.append_assoc, afterGap_append hbefore]
      exact afterGap_cons rfl _
    unfold afterComma
    rw [hcomma]
    show afterGap (after ++ c :: cs) = c :: cs
    rw [afterGap_append hafter, afterGap_cons hgap]

/-! ## Things in brackets -/

section Bracketed

variable {α β γ : Type} {item : Reader α} {f : α → γ} {g : β → γ} {text body : β → List Char}
  {ends : β → List Char → Prop} {items : List β} {opening closing : Char}
  {front first tail : List Char} {x : γ}

theorem isGap_closing : ∀ c ∈ [')', ']', '\x7d'], Lexeme.isGap c = false ∧ c ≠ ',' := by
  simp [Lexeme.isGap]

/-- No further item begins at a closing bracket, nor at a comma in front of one. -/
theorem fails_further (hclosing : closing ∈ [')', ']', '\x7d']) (htail : MayHaveComma tail)
    (hnone : Fails item (closing :: rest)) :
    Fails (do let _ ← symbol ','; let _ ← gap; item) (afterGap (tail ++ closing :: rest)) := by
  obtain ⟨hgap, hne⟩ := isGap_closing closing hclosing
  rcases htail with htail | ⟨before, after, hbefore, hafter, rfl⟩
  · rw [afterGap_append htail, afterGap_cons hgap]
    exact (Fails.symbol fun r heq => hne (List.cons.inj heq).1).bind
  · have hcomma : Reads (symbol ',') (',' :: (after ++ closing :: rest)) fun _ r =>
        r = after ++ closing :: rest :=
      Reads.symbol rfl
    rw [List.append_assoc, afterGap_append hbefore, List.append_assoc, List.singleton_append,
      afterGap_cons rfl]
    refine Fails.bind_of_reads hcomma fun _ r hr => Fails.gap_bind fun _ => ?_
    rwa [hr, afterGap_append hafter, afterGap_cons hgap]

/-- Between brackets there may be nothing but a gap. -/
theorem reads_bracketed_nil (hclosing : closing ∈ [')', ']', '\x7d']) (hfront : Gap front)
    (hnone : Fails item (closing :: rest)) :
    Reads (bracketed opening closing item) (opening :: (front ++ closing :: rest)) fun as r =>
      as = [] ∧ r = rest := by
  have hgap := (isGap_closing closing hclosing).1
  refine Reads.symbol_bind (Reads.gap_bind fun _ => ?_)
  rw [afterGap_append hfront, afterGap_cons hgap]
  refine Reads.optional_none_bind hnone.bind (Reads.gap_bind fun _ => ?_)
  rw [afterGap_cons hgap]
  exact Reads.symbol_bind (Reads.pure ⟨rfl, rfl⟩)

/-- A first item and a series of further ones are read as items, and the closing bracket is the end,
whether there is one more comma in front of it or not. -/
theorem reads_bracketed_of_series (hclosing : closing ∈ [')', ']', '\x7d']) (hfront : Gap front)
    (hbegins : ∀ cs, afterGap (first ++ cs) = first ++ cs)
    (hfirst : Reads item (first ++ (items.flatMap text ++ (tail ++ closing :: rest))) fun a r =>
      f a = x ∧ afterGap r = afterGap (items.flatMap text ++ (tail ++ closing :: rest)))
    (hseries : Series (do let _ ← symbol ','; let _ ← gap; item) f g text body afterGap ends items)
    (hends : ∀ b ∈ items.getLast?, ends b (tail ++ closing :: rest)) (htail : MayHaveComma tail)
    (hnone : Fails item (closing :: rest)) :
    Reads (bracketed opening closing item)
      (opening :: (front ++ (first ++ (items.flatMap text ++ (tail ++ closing :: rest)))))
      fun as r => as.map f = x :: items.map g ∧ r = rest := by
  obtain ⟨hgap, hne⟩ := isGap_closing closing hclosing
  refine Reads.symbol_bind (Reads.gap_bind fun _ => ?_)
  rw [afterGap_append hfront, hbegins]
  -- first the items, whose end is compared over a gap, then the closing bracket
  refine Reads.bind (Reads.optional ?_ : Reads _ _ fun o r =>
    (o.getD []).map f = x :: items.map g ∧ afterGap r = closing :: rest) fun o r ho => ?_
  · refine hfirst.bind fun a r ha => Reads.gap_bind fun _ => ?_
    refine Reads.bind (hseries.spaced hends (fails_further hclosing htail hnone)
      (afterGap_afterGap _) ha.2) fun as r has => Reads.gap_bind fun _ => ?_
    rw [has.2]
    refine (reads_comma _).bind fun _ r hr => Reads.pure ⟨?_, ?_⟩
    · rw [Option.getD_some, List.map_cons, ha.1, has.1]
    · rw [hr, afterComma_append htail hgap hne]
  · refine Reads.gap_bind fun _ => ?_
    rw [ho.2]
    exact Reads.symbol_bind (Reads.pure ⟨ho.1, rfl⟩)

/-- Items with separators in front are read as items. -/
theorem series_comma
    (hitem : ∀ b ∈ items, ∀ rest, ExprEnds rest →
      Reads item (text b ++ rest) fun a r => f a = g b ∧ afterGap r = afterGap rest)
    (hgap : ∀ b ∈ items, ∀ rest, afterGap (text b ++ rest) = text b ++ rest) :
    Series (do let _ ← symbol ','; let _ ← gap; item) f g (fun b => ',' :: ' ' :: text b)
      (fun b => ',' :: ' ' :: text b) afterGap (fun _ => ExprEnds) items where
  begins := fun _ _ _ => rfl
  nonempty := fun _ _ h => by cases h
  follows := isChain_of_forall fun _ _ _ => exprEnds_cons (by decide) _
  reads := by
    intro b hb rest hrest
    refine Reads.symbol_bind (Reads.gap_bind fun _ => ?_)
    show Reads item (afterGap (text b ++ rest)) _
    rw [hgap b hb]
    exact hitem b hb rest hrest

/-- Bracketed items are read as items, and the closing bracket is the end. -/
theorem reads_bracketed (hclosing : closing ∈ [')', ']', '\x7d'])
    (hitem : ∀ b ∈ items, ∀ rest, ExprEnds rest →
      Reads item (text b ++ rest) fun a r => f a = g b ∧ afterGap r = afterGap rest)
    (hgap : ∀ b ∈ items, ∀ rest, afterGap (text b ++ rest) = text b ++ rest)
    (hnone : Fails item (closing :: rest)) :
    Reads (bracketed opening closing item)
      (opening :: (commaSeparated (items.map text) ++ closing :: rest))
      fun as r => as.map f = items.map g ∧ r = rest := by
  have hends : ExprEnds (closing :: rest) := exprEnds_cons (List.mem_cons_of_mem _ hclosing) _
  cases items with
  | nil =>
    refine (reads_bracketed_nil hclosing Lexeme.gap_nil hnone).mono fun as r has => ?_
    rw [has.1]
    exact ⟨rfl, has.2⟩
  | cons b more =>
    obtain ⟨hfirst, hmore⟩ := List.forall_mem_cons.mp hitem
    obtain ⟨hfirstGap, hmoreGap⟩ := List.forall_mem_cons.mp hgap
    rw [commaSeparated_map_cons, List.append_assoc]
    -- no comma is printed behind the last item
    refine reads_bracketed_of_series hclosing Lexeme.gap_nil hfirstGap (hfirst _ ?_)
      (series_comma hmore hmoreGap) (fun _ _ => hends) (Or.inl Lexeme.gap_nil) hnone
    exact forall_flatMap_append (fun _ _ _ => exprEnds_cons (by decide) _) hends

end Bracketed

/-! ## Names and literals -/

/-- A name is read as the token of what it means. -/
theorem reads_nameToken {p : Reader (List Char)} {meant : List Char}
    (h : Reads p cs fun text r => text = meant ∧ r = rest) :
    Reads (nameToken p) cs fun token r => token.text = String.ofList meant ∧ r = rest := by
  unfold nameToken
  refine Reads.located_bind h ?_
  rintro text r place ⟨rfl, rfl⟩
  exact Reads.pure ⟨rfl, rfl⟩

section Quotes

variable {q : Char} (hq : q = '"' ∨ q = '\'')
include hq

theorem reads_stringLiteral {inside : List Char} (h : Lexeme.Inside q inside) :
    Reads stringLiteral (q :: inside ++ [q] ++ rest) fun literal r =>
      literal = q :: inside ++ [q] ∧ r = rest := by
  have hstring : Lexeme.string? (q :: inside ++ [q] ++ rest) = some (q :: inside ++ [q], rest) := by
    rw [List.append_assoc]
    exact Lexeme.string?_inside hq h rest
  exact Reads.named (Reads.lexeme hstring ⟨rfl, rfl⟩)

/-- A string is read as what it means, whatever else could stand in its place. -/
theorem reads_stringOr (plain : Reader (List Char)) {inside : List Char}
    (h : Lexeme.Inside q inside) :
    Reads (stringOr plain) (q :: inside ++ [q] ++ rest) fun meant r =>
      meant = Lexeme.meaning (q :: inside ++ [q]) ∧ r = rest := by
  refine Reads.left (Reads.map ((reads_stringLiteral hq h).mono fun literal r hr => ?_))
  rw [hr.1]
  exact ⟨rfl, hr.2⟩

theorem reads_stringOr_quotedIn (plain : Reader (List Char)) (text : List Char) :
    Reads (stringOr plain) (Lexeme.quotedIn q text ++ rest) fun meant r =>
      meant = text ∧ r = rest := by
  refine (reads_stringOr hq plain (Lexeme.inside_escapedIn q text)).mono fun meant r hr => ?_
  rw [hr.1]
  exact ⟨Lexeme.meaning_quotedIn hq text, hr.2⟩

end Quotes

/-- A name is read as it stands, since no string begins like a name. -/
theorem reads_stringOr_name {rule : Rule} {split : List Char → Lexeme.Split} {name : List Char}
    (hstart : ∃ c r, name = c :: r ∧ Lexeme.isNameStart c = true)
    (hsplit : split (name ++ rest) = some (name, rest)) :
    Reads (stringOr (lexical rule split)) (name ++ rest) fun meant r => meant = name ∧ r = rest := by
  obtain ⟨c, r, rfl, hc⟩ := hstart
  have hne := Lexeme.ne_of_isNameStart hc
  have hstring : Fails stringLiteral (c :: (r ++ rest)) :=
    Fails.named (Fails.lexeme
      (Lexeme.string?_eq_none (hne _ (by decide)) (hne _ (by decide)) _))
  exact Reads.right hstring.map (Reads.named (Reads.lexeme hsplit ⟨rfl, rfl⟩))

theorem trimGap_of_noGap {text : List Char} (h : ∀ c ∈ text, Lexeme.isGap c = false) :
    trimGap text = text := by
  cases hreverse : text.reverse with
  | nil =>
    rw [List.reverse_eq_nil_iff.mp hreverse]
    rfl
  | cons c r =>
    have hc := h c (List.mem_reverse.mp (hreverse ▸ List.mem_cons_self ..))
    rw [trimGap, hreverse, List.dropWhile_cons_of_neg (by rw [hc]; exact Bool.false_ne_true),
      ← hreverse, List.reverse_reverse]

/-- A text without gaps is its own token. -/
theorem tokenOf_append {text : List Char} (h : ∀ c ∈ text, Lexeme.isGap c = false)
    (place : Position) :
    tokenOf place ((text ++ rest).take ((text ++ rest).length - rest.length)) =
      ⟨String.ofList text, .over place text⟩ := by
  have htake : (text ++ rest).take ((text ++ rest).length - rest.length) = text := by
    rw [List.length_append, Nat.add_sub_cancel, List.take_left]
  rw [htake, tokenOf, trimGap_of_noGap h]

/-- A lexeme that an expression of this kind is made of is read as that expression. -/
theorem reads_literal (kind : Expr.Kind) (rule : Rule) {split : List Char → Lexeme.Split}
    {text : List Char} (hsplit : split (text ++ rest) = some (text, rest))
    (hgap : ∀ c ∈ text, Lexeme.isGap c = false) :
    Reads (literal kind (lexical rule split)) (text ++ rest) fun e r =>
      (∃ span, e = .plain ⟨String.ofList text, span⟩ kind []) ∧ r = rest := by
  have hlexeme : Reads (lexical rule split) (text ++ rest) fun _ r => r = rest :=
    Reads.named (Reads.lexeme hsplit rfl)
  refine Reads.located_bind hlexeme ?_
  rintro taken r place rfl
  exact Reads.pure ⟨⟨_, congrArg (Expr.plain · kind []) (tokenOf_append hgap place)⟩, rfl⟩

/-! ## Where no expression can begin -/

theorem fails_literal {kind : Expr.Kind} {rule : Rule} {split : List Char → Lexeme.Split}
    (h : split cs = none) : Fails (literal kind (lexical rule split)) cs :=
  (Fails.located (Fails.named (Fails.lexeme h))).bind

theorem fails_bracketed {α : Type} {item : Reader α} {opening closing : Char}
    (h : ∀ r, cs ≠ opening :: r) : Fails (bracketed opening closing item) cs :=
  (Fails.symbol h).bind

variable {inner : Reader Expr}

theorem fails_group (h : ∀ r, cs ≠ '(' :: r) : Fails (group inner) cs :=
  Fails.named (Fails.symbol h).bind

theorem fails_list (h : ∀ r, cs ≠ '[' :: r) : Fails (list inner) cs :=
  (Fails.located (Fails.named (fails_bracketed h))).bind

theorem fails_dict (h : ∀ r, cs ≠ '\x7b' :: r) : Fails (dict inner) cs :=
  (Fails.located (Fails.named (fails_bracketed h))).bind

theorem fails_stringLiteral (h : Lexeme.string? cs = none) : Fails stringLiteral cs :=
  Fails.named (Fails.lexeme h)

/-- No expression begins at a closing bracket or at the end. -/
theorem fails_primary (h : ∀ c ∈ cs.head?, c ∈ [')', ']', '\x7d']) : Fails (primary inner) cs := by
  have hgroup : ∀ r, cs ≠ '(' :: r := by
    rintro r rfl
    exact absurd (h _ rfl) (by decide)
  have hlist : ∀ r, cs ≠ '[' :: r := by
    rintro r rfl
    exact absurd (h _ rfl) (by decide)
  have hdict : ∀ r, cs ≠ '\x7b' :: r := by
    rintro r rfl
    exact absurd (h _ rfl) (by decide)
  have hlexemes : Lexeme.float? cs = none ∧ Lexeme.int? cs = none ∧ Lexeme.boolean? cs = none ∧
      Lexeme.null? cs = none ∧ Lexeme.string? cs = none ∧ Lexeme.path? cs = none := by
    cases cs with
    | nil => decide
    | cons c cs =>
      have hc := h c rfl
      simp only [List.mem_cons, List.not_mem_nil, or_false] at hc
      rcases hc with rfl | rfl | rfl <;> exact ⟨rfl, rfl, rfl, rfl, rfl, rfl⟩
  obtain ⟨hfloat, hint, hbool, hnull, hstring, hpath⟩ := hlexemes
  refine (fails_group hgroup).orElse ((fails_list hlist).orElse ((fails_dict hdict).orElse ?_))
  refine (fails_literal hfloat).orElse ((fails_literal hint).orElse ?_)
  refine (fails_literal hbool).orElse ((fails_literal hnull).orElse ?_)
  exact ((fails_stringLiteral hstring).located.bind).orElse (fails_literal hpath)

theorem fails_expression (h : ∀ c ∈ cs.head?, c ∈ [')', ']', '\x7d']) :
    Fails (expression inner) cs := by
  have hoperand : Fails (operand inner) cs :=
    Fails.named (Fails.located (fails_primary h).bind).bind
  exact Fails.named (Fails.located hoperand.bind).bind

theorem fails_expressionAt (n : Nat) (h : ∀ c ∈ cs.head?, c ∈ [')', ']', '\x7d']) :
    Fails (expressionAt n) cs := by
  cases n with
  | zero => exact fun place => rfl
  | succ n =>
    rw [expressionAt_succ]
    exact fails_expression h

/-! ## Lexemes as expressions -/

/-- The expression is the single lexeme `text`, and the text behind it is left. -/
def IsLeaf (kind : Expr.Kind) (text rest : List Char) (e : Expr) (r : List Char) : Prop :=
  (∃ span, e = .plain ⟨String.ofList text, span⟩ kind []) ∧ r = rest

/-- What begins with no bracket is read as a single lexeme. -/
theorem reads_primary_of_lexeme {c : Char} {post : Expr → List Char → Prop}
    (hc : ∀ d ∈ ['(', '[', '\x7b'], c ≠ d)
    (h : Reads (literal .float (lexical .float Lexeme.float?)
      <|> literal .int (lexical .int Lexeme.int?)
      <|> literal .bool (lexical .boolean Lexeme.boolean?)
      <|> literal .null (lexical .null Lexeme.null?)
      <|> textLiteral
      <|> literal .path (lexical .path Lexeme.path?)) (c :: cs) post) :
    Reads (primary inner) (c :: cs) post := by
  have hne : ∀ d ∈ ['(', '[', '\x7b'], ∀ r, c :: cs ≠ d :: r := by
    intro d hd r heq
    exact hc d hd (List.cons.inj heq).1
  refine Reads.right (fails_group (hne _ (by decide))) ?_
  refine Reads.right (fails_list (hne _ (by decide))) ?_
  exact Reads.right (fails_dict (hne _ (by decide))) h

variable {text : List Char}

theorem reads_primary_float (h : Lexeme.float? text = some (text, []))
    (hrest : Lexeme.Delimited rest) :
    Reads (primary inner) (text ++ rest) (IsLeaf .float text rest) := by
  have hliteral :=
    reads_literal .float .float ((Lexeme.stopsBefore_float? hrest).eq_some h)
      (Lexeme.noGap_of_float? h)
  obtain ⟨c, r, rfl, hc⟩ := Lexeme.head_of_float? h
  exact reads_primary_of_lexeme (fun d hd => Lexeme.ne_of_number hc d (List.mem_append_left _ hd))
    (Reads.left hliteral)

theorem reads_primary_int (h : Lexeme.int? text = some (text, []))
    (hrest : Lexeme.Delimited rest) :
    Reads (primary inner) (text ++ rest) (IsLeaf .int text rest) := by
  -- numbers with a fraction are tried first
  have hfloat : Fails (literal .float (lexical .float Lexeme.float?)) (text ++ rest) :=
    fails_literal (Lexeme.float?_eq_none_of_int? hrest h)
  have hliteral :=
    reads_literal .int .int ((Lexeme.stopsBefore_int? hrest).eq_some h) (Lexeme.noGap_of_int? h)
  obtain ⟨c, r, rfl, hc⟩ := Lexeme.head_of_signedDigits? (Lexeme.wholeWord_eq_some_iff.mp h).1
  exact reads_primary_of_lexeme (fun d hd => Lexeme.ne_of_number hc d (List.mem_append_left _ hd))
    (Reads.right hfloat (Reads.left hliteral))

/-- What begins like a name is no bracket and no number. -/
theorem reads_primary_of_isNameStart {c : Char} {post : Expr → List Char → Prop}
    (hc : Lexeme.isNameStart c = true)
    (h : Reads (literal .bool (lexical .boolean Lexeme.boolean?)
      <|> literal .null (lexical .null Lexeme.null?)
      <|> textLiteral
      <|> literal .path (lexical .path Lexeme.path?)) (c :: cs) post) :
    Reads (primary inner) (c :: cs) post := by
  have hne := Lexeme.ne_of_isNameStart hc
  have hdigit := Lexeme.isDigit_of_isNameStart hc
  refine reads_primary_of_lexeme (fun d hd => hne d (List.mem_append_left _ hd)) ?_
  refine Reads.right (fails_literal (Lexeme.float?_eq_none (hne _ (by decide)) hdigit cs)) ?_
  exact Reads.right (fails_literal (Lexeme.int?_eq_none (hne _ (by decide)) hdigit cs)) h

theorem reads_primary_bool (h : Lexeme.boolean? text = some (text, []))
    (hrest : Lexeme.Delimited rest) :
    Reads (primary inner) (text ++ rest) (IsLeaf .bool text rest) := by
  have hsplit := (Lexeme.stopsBefore_boolean? hrest).eq_some h
  obtain ⟨w, hw, rfl, -, -⟩ := Lexeme.word?_eq_some h
  have hreserved : w ∈ Lexeme.reservedWords := List.mem_append_left _ hw
  have hliteral := reads_literal .bool .boolean hsplit (Lexeme.noGap_of_word hreserved)
  obtain ⟨c, r, hword, hc⟩ := Lexeme.head_of_word hreserved
  rw [hword] at hliteral ⊢
  exact reads_primary_of_isNameStart hc (Reads.left hliteral)

theorem reads_primary_null (h : Lexeme.null? text = some (text, []))
    (hrest : Lexeme.Delimited rest) :
    Reads (primary inner) (text ++ rest) (IsLeaf .null text rest) := by
  have hsplit := (Lexeme.stopsBefore_null? hrest).eq_some h
  obtain ⟨w, hw, rfl, -, -⟩ := Lexeme.word?_eq_some h
  have hreserved : w ∈ Lexeme.reservedWords :=
    List.mem_append_right ["true", "false", "True", "False"] hw
  -- truth words are tried first; the run of name characters is another word
  have hbool : Lexeme.boolean? (w.toList ++ rest) = none := by
    refine Lexeme.boolean?_eq_none ?_
    rw [Lexeme.takeWhile_word hrest (Lexeme.isNameChar_reservedWords w hreserved)]
    have hne : ∀ w ∈ ["none", "None", "null"], ∀ b ∈ ["true", "false", "True", "False"],
        w.toList ≠ b.toList := by
      decide
    exact hne w hw
  have hliteral := reads_literal .null .null hsplit (Lexeme.noGap_of_word hreserved)
  obtain ⟨c, r, hword, hc⟩ := Lexeme.head_of_word hreserved
  rw [hword] at hliteral hbool ⊢
  exact reads_primary_of_isNameStart hc (Reads.right (fails_literal hbool) (Reads.left hliteral))

theorem reads_primary_path (h : Lexeme.path? text = some (text, []))
    (hfirst : ∀ w ∈ Lexeme.reservedWords, text.takeWhile (· != '.') ≠ w.toList)
    (hrest : Lexeme.Delimited rest) :
    Reads (primary inner) (text ++ rest) (IsLeaf .path text rest) := by
  -- a path is the last thing to be tried, so all the others have to fail on it
  have hliteral :=
    reads_literal .path .path ((Lexeme.stopsBefore_path? hrest).eq_some h) (Lexeme.noGap_of_path? h)
  obtain ⟨hbool, hnull⟩ := Lexeme.words_eq_none_of_path? hrest h hfirst
  obtain ⟨c, r, rfl, hc⟩ := Lexeme.head_of_path? h
  have hne := Lexeme.ne_of_isNameStart hc
  have hstring : Fails textLiteral (c :: r ++ rest) :=
    (fails_stringLiteral
      (Lexeme.string?_eq_none (hne _ (by decide)) (hne _ (by decide)) _)).located.bind
  refine reads_primary_of_isNameStart hc ?_
  refine Reads.right (fails_literal hbool) (Reads.right (fails_literal hnull) ?_)
  exact Reads.right hstring hliteral

theorem reads_primary_string {q : Char} (hq : q = '"' ∨ q = '\'') {inside : List Char}
    (h : Lexeme.Inside q inside) :
    Reads (primary inner) (q :: inside ++ [q] ++ rest)
      (IsLeaf .text (Lexeme.meaning (q :: inside ++ [q])) rest) := by
  have hne : ∀ d ∈ ['(', '[', '\x7b', '-'], q ≠ d := by
    rcases hq with rfl | rfl <;> simp
  have hdigit : q.isDigit = false := by
    rcases hq with rfl | rfl <;> rfl
  -- a quote is no name character, so no word stands here
  have hrun : (q :: inside ++ [q] ++ rest).takeWhile Lexeme.isNameChar = [] := by
    rcases hq with rfl | rfl <;> rfl
  have hword : ∀ w ∈ Lexeme.reservedWords,
      (q :: inside ++ [q] ++ rest).takeWhile Lexeme.isNameChar ≠ w.toList := by
    intro w hw
    obtain ⟨c, r, hc, -⟩ := Lexeme.head_of_word hw
    rw [hrun, hc]
    exact List.cons_ne_nil _ _ ∘ Eq.symm
  have hbool : Lexeme.boolean? (q :: inside ++ [q] ++ rest) = none :=
    Lexeme.boolean?_eq_none fun w hw => hword w (List.mem_append_left _ hw)
  have hnull : Lexeme.null? (q :: inside ++ [q] ++ rest) = none :=
    Lexeme.null?_eq_none fun w hw =>
      hword w (List.mem_append_right ["true", "false", "True", "False"] hw)
  have hliteral : Reads textLiteral (q :: inside ++ [q] ++ rest)
      (IsLeaf .text (Lexeme.meaning (q :: inside ++ [q])) rest) := by
    refine Reads.located_bind (reads_stringLiteral hq h) fun _ r place hr => ?_
    rw [hr.1]
    exact Reads.pure ⟨⟨_, rfl⟩, hr.2⟩
  refine reads_primary_of_lexeme (fun d hd => hne d (List.mem_append_left _ hd)) ?_
  refine Reads.right (fails_literal (Lexeme.float?_eq_none (hne _ (by decide)) hdigit _)) ?_
  refine Reads.right (fails_literal (Lexeme.int?_eq_none (hne _ (by decide)) hdigit _)) ?_
  exact Reads.right (fails_literal hbool) (Reads.right (fails_literal hnull) (Reads.left hliteral))

theorem reads_primary_text {q : Char} (hq : q = '"' ∨ q = '\'') (text : List Char) :
    Reads (primary inner) (Lexeme.quotedIn q text ++ rest) (IsLeaf .text text rest) := by
  have hstring : Reads (primary inner) (Lexeme.quotedIn q text ++ rest)
      (IsLeaf .text (Lexeme.meaning (Lexeme.quotedIn q text)) rest) :=
    reads_primary_string hq (Lexeme.inside_escapedIn q text)
  rwa [Lexeme.meaning_quotedIn hq] at hstring

/-! ## Where no key with a value can be -/

/-- No key begins the text, or none with an equals sign behind it. -/
def NoKey (cs : List Char) : Prop :=
  Fails key cs ∨ Reads key cs fun _ left => ∀ s, afterGap left ≠ '=' :: s

/-- Of a word or path, a key takes no more than the first segment. -/
theorem reads_key_name {text : List Char} {c : Char} {r : List Char} (htext : text = c :: r)
    (hc : Lexeme.isNameStart c = true) (hall : ∀ d ∈ text, Lexeme.isNameChar d = true ∨ d = '.')
    (hrest : Lexeme.Delimited rest) (hequals : ∀ s, afterGap rest ≠ '=' :: s) :
    Reads key (text ++ rest) fun _ left => ∀ s, afterGap left ≠ '=' :: s := by
  subst htext
  have hne := Lexeme.ne_of_isNameStart hc
  have hstring : Fails stringLiteral (c :: (r ++ rest)) :=
    fails_stringLiteral (Lexeme.string?_eq_none (hne _ (by decide)) (hne _ (by decide)) _)
  have hleft : ∀ s, afterGap (Lexeme.dashedRun (r ++ rest)).2 ≠ '=' :: s := by
    intro s hs
    have hinner := (List.forall_mem_cons.mp hall).2
    rw [Lexeme.dashedRun_append hrest] at hs
    rcases Lexeme.dashedRun_segment hinner with heq | ⟨t, heq⟩
    · rw [heq, List.nil_append] at hs
      exact hequals s hs
    · rw [heq, List.cons_append, afterGap_cons rfl] at hs
      exact absurd (List.cons.inj hs).1 (by decide)
  refine Reads.named ?_
  have hname : Reads (stringOr (lexical .attrName Lexeme.dashedName?)) (c :: (r ++ rest))
      fun _ left => ∀ s, afterGap left ≠ '=' :: s :=
    Reads.right hstring.map
      (Reads.named (Reads.lexeme (Lexeme.dashedName?_of_isNameStart hc _) hleft))
  exact Reads.located_bind hname fun _ _ _ hs => Reads.pure hs

theorem fails_key {c : Char} (hdouble : c ≠ '"') (hsingle : c ≠ '\'')
    (hname : Lexeme.isNameStart c = false) (cs : List Char) : Fails key (c :: cs) := by
  have hstring : Fails stringLiteral (c :: cs) :=
    fails_stringLiteral (Lexeme.string?_eq_none hdouble hsingle cs)
  have hplain : Fails (lexical .attrName Lexeme.dashedName?) (c :: cs) :=
    Fails.named (Fails.lexeme (Lexeme.dashedName?_eq_none hname cs))
  exact Fails.named (Fails.located (hstring.map.orElse hplain)).bind

theorem noKey_string {q : Char} (hq : q = '"' ∨ q = '\'') {inside : List Char}
    (h : Lexeme.Inside q inside) (hequals : ∀ s, afterGap rest ≠ '=' :: s) :
    NoKey (q :: inside ++ [q] ++ rest) := by
  refine Or.inr ((Reads.named (reads_nameToken (reads_stringOr hq _ h))).mono fun _ left hleft => ?_)
  rw [hleft.2]
  exact hequals

/-- So the reader of a key and a value takes nothing. -/
theorem NoKey.fails {α : Type} {f : Token → List Char → Reader α} (h : NoKey cs) :
    Fails (do let name ← key; let _ ← gap; let equals ← symbol '='; f name equals) cs := by
  rcases h with hfails | hreads
  · exact hfails.bind
  -- a key was read, but the equals sign is missing
  · exact Fails.bind_of_reads hreads fun _ _ hr => Fails.gap_bind fun _ => (Fails.symbol hr).bind

/-! ## Groups, filters and sums -/

/-- What was read, and the source that it was read from. -/
theorem reads_located_bind {α β : Type} {p : Reader α} {f : α × Position × List Char → Reader β}
    {mid : α → List Char → Prop} {post : β → List Char → Prop} (htakes : Takes p)
    (h : Reads p cs mid)
    (hf : ∀ a r place taken, mid a r → cs = taken ++ r → Reads (f (a, place, taken)) r post) :
    Reads (located p >>= f) cs post := by
  intro place
  obtain ⟨a, d, hread, hmid⟩ := h place
  obtain ⟨taken, -, hrest, -⟩ := htakes _ a d hread
  have hcs : cs = taken ++ d.rest := hrest
  obtain ⟨b, e, hnext, hpost⟩ := hf a d.rest place taken hmid hcs d.position
  refine ⟨b, e, ?_, hpost⟩
  have htake : cs.take (cs.length - d.rest.length) = taken := by
    rw [hcs, List.length_append, Nat.add_sub_cancel, List.take_left]
  rw [read?_bind, read?_located, hread, Option.map_some, Option.bind_some]
  dsimp only
  rw [htake]
  exact hnext

section Parts

variable {β γ : Type} {text body : β → List Char} {ends : β → List Char → Prop} {items : List β}
  {front first back : List Char} {x : γ}

theorem reads_group_of_inner {mid : Expr → Prop} (hfront : Gap front)
    (hbegins : ∀ cs, afterGap (first ++ cs) = first ++ cs) (hback : Gap back)
    (h : Reads inner (first ++ (back ++ ')' :: rest)) fun e r =>
      mid e ∧ afterGap r = afterGap (back ++ ')' :: rest)) :
    Reads (group inner) ('(' :: (front ++ (first ++ (back ++ ')' :: rest)))) fun e r =>
      mid e ∧ r = rest := by
  refine Reads.named (Reads.symbol_bind (Reads.gap_bind fun _ => ?_))
  rw [afterGap_append hfront, hbegins]
  refine h.bind fun e r he => Reads.gap_bind fun _ => ?_
  rw [he.2, afterGap_append hback, afterGap_cons rfl]
  exact Reads.symbol_bind (Reads.pure ⟨he.1, rfl⟩)

/-- A filter is a bar, a name and perhaps arguments. -/
theorem reads_filter_of_parts {name : List Char} {post : FilterCall Expr → List Char → Prop}
    (hfront : Gap front) (hname : Lexeme.name? name = some (name, []))
    (hrest : Lexeme.Delimited rest)
    (hargs : Reads (optional (named .filterArgs (bracketed '(' ')' inner))) (afterGap rest)
      fun o r => ∀ token span, token.text = String.ofList name → post ⟨token, o.getD [], span⟩ r) :
    Reads (filter inner) ('|' :: (front ++ (name ++ rest))) post := by
  have hbegins : afterGap (name ++ rest) = name ++ rest := by
    obtain ⟨c, r, rfl, hstart⟩ := Lexeme.head_of_name? hname
    exact afterGap_cons (Lexeme.isGap_of_isNameChar (Lexeme.isNameChar_of_isNameStart hstart)) _
  have htoken : Reads (nameToken (lexical .filterName Lexeme.name?)) (name ++ rest) fun token r =>
      token.text = String.ofList name ∧ r = rest :=
    reads_nameToken (Reads.named (Reads.lexeme
      ((Lexeme.stopsBefore_name? hrest).eq_some hname) ⟨rfl, rfl⟩))
  have hparts : Reads (do
        let _ ← symbol '|'
        let _ ← gap
        let name ← nameToken (lexical .filterName Lexeme.name?)
        let _ ← gap
        let args ← optional (named .filterArgs (bracketed '(' ')' inner))
        pure (name, args.getD []))
      ('|' :: (front ++ (name ++ rest))) fun x r => ∀ span, post ⟨x.1, x.2, span⟩ r := by
    refine Reads.symbol_bind (Reads.gap_bind fun _ => ?_)
    rw [afterGap_append hfront, hbegins]
    refine htoken.bind fun token r htoken => Reads.gap_bind fun _ => ?_
    rw [htoken.2]
    exact hargs.bind fun o r hpost => Reads.pure fun span => hpost token span htoken.1
  exact Reads.named (Reads.located_bind hparts fun _ _ _ hx => Reads.pure (hx _))

theorem fails_filterChain (h : ∀ r, cs ≠ '|' :: r) : Fails (filterChain inner) cs :=
  Fails.named (Fails.named (Fails.located (Fails.symbol h).bind).bind).bind

/-- Filters are read one by one, up to where no further bar follows. -/
theorem reads_filters {f : FilterCall Expr → γ} {g : β → γ}
    (hseries : Series (filter inner) f g text body afterGap ends items)
    (hends : ∀ d ∈ items.getLast?, ends d rest) (hbar : ∀ r, afterGap rest ≠ '|' :: r) :
    Reads (optional (filterChain inner)) (afterGap (items.flatMap text ++ rest)) fun o r =>
      (o.getD []).map f = items.map g ∧ afterGap r = afterGap rest := by
  cases items with
  | nil => exact Reads.optional_none (fails_filterChain hbar) ⟨rfl, afterGap_afterGap rest⟩
  | cons b more =>
    have hnone : Fails (filter inner) (afterGap rest) :=
      Fails.named (Fails.located (Fails.symbol hbar).bind).bind
    rw [hseries.next_cons]
    refine Reads.optional (Reads.named ?_)
    refine (hseries.reads b (List.mem_cons_self ..) _ (hseries.ends_flatMap hends)).bind
      fun a r ha => Reads.gap_bind fun _ => ?_
    refine (hseries.tail.spaced (forall_getLast?_of_cons hends) hnone (afterGap_afterGap _)
      ha.2).bind fun as r has => Reads.pure ⟨?_, has.2⟩
    rw [Option.getD_some, List.map_cons, List.map_cons, ha.1, has.1]

/-- An operand is a primary expression and its filters. -/
theorem reads_operand_of_parts {mid post : Expr → List Char → Prop}
    (hprimary : Reads (primary inner) cs mid)
    (hfilters : ∀ e r, mid e r → Reads (optional (filterChain inner)) (afterGap r) fun o r' =>
      ∀ span, post (e.withFilters (o.getD []) span) r') :
    Reads (operand inner) cs post := by
  have hparts : Reads (do
        let e ← primary inner
        let _ ← gap
        let filters ← optional (filterChain inner)
        pure (e, filters.getD [])) cs fun x r => ∀ span, post (x.1.withFilters x.2 span) r :=
    hprimary.bind fun e r he => Reads.gap_bind fun _ =>
      (hfilters e r he).bind fun _ _ hspan => Reads.pure hspan
  exact Reads.named (Reads.located_bind hparts fun _ _ _ hx => Reads.pure (hx _))

/-- A single operand is an expression if no plus follows. -/
theorem reads_expression_of_operand {mid : Expr → Prop}
    (h : Reads (operand inner) cs fun e r => mid e ∧ afterGap r = afterGap rest)
    (hplus : ∀ r, afterGap rest ≠ '+' :: r) :
    Reads (expression inner) cs fun e r => mid e ∧ afterGap r = afterGap rest := by
  have hparts : Reads (do
        let first ← operand inner
        let _ ← gap
        let more ← spaced do
          let _ ← symbol '+'
          let _ ← gap
          operand inner
        pure (first, more))
      cs fun x r => mid x.1 ∧ x.2 = [] ∧ afterGap r = afterGap rest := by
    refine h.bind fun e r he => Reads.gap_bind fun _ => ?_
    rw [he.2]
    exact Reads.spaced_none_bind (Fails.symbol hplus).bind
      (Reads.pure ⟨he.1, rfl, afterGap_afterGap rest⟩)
  refine Reads.named (Reads.located_bind hparts fun x r place hx => ?_)
  obtain ⟨first, more⟩ := x
  obtain ⟨hfirst, rfl, hend⟩ := hx
  exact Reads.pure ⟨hfirst, hend⟩

/-- A whole output is an expression with gaps around it. -/
theorem reads_output_of_expression {mid : Expr → Prop} (hfront : Gap front)
    (hbegins : afterGap cs = cs)
    (h : Reads (expression inner) cs fun e r => mid e ∧ afterGap r = []) :
    Reads (output inner) (front ++ cs) fun e _ => mid e := by
  refine Reads.named (Reads.gap_bind fun _ => ?_)
  rw [afterGap_append hfront, hbegins]
  refine h.bind fun e r he => Reads.gap_bind fun _ => ?_
  rw [he.2]
  exact Reads.endOfInput.bind fun _ _ _ => Reads.pure he.1

/-- What is read of operands with pluses between them: the operand if there is only one, or else a
sum. The operands are seen through `view`. -/
inductive Summed (view : Expr → γ) (cs r : List Char) : γ → List γ → Expr → Prop
  | single {e : Expr} : Summed view cs r (view e) [] e
  | sum {e second : Expr} {more : List Expr} {taken : List Char} (place : Position)
      (htaken : cs = taken ++ r) :
      Summed view cs r (view e) ((second :: more).map view)
        (.plain (tokenOf place taken) .sum (e :: second :: more))

/-- Operands are read one by one, up to where no further plus follows. -/
theorem reads_expression_of_series {view : Expr → γ} {g : β → γ} (htakes : Takes inner)
    (hfirst : Reads (operand inner) (first ++ (items.flatMap text ++ rest)) fun e r =>
      view e = x ∧ afterGap r = afterGap (items.flatMap text ++ rest))
    (hseries : Series (do let _ ← symbol '+'; let _ ← gap; operand inner) view g text body afterGap
      ends items)
    (hends : ∀ d ∈ items.getLast?, ends d rest) (hplus : ∀ r, afterGap rest ≠ '+' :: r) :
    Reads (expression inner) (first ++ (items.flatMap text ++ rest)) fun e r =>
      Summed view (first ++ (items.flatMap text ++ rest)) r x (items.map g) e ∧
        afterGap r = afterGap rest := by
  have hparts : Reads (do
        let first ← operand inner
        let _ ← gap
        let more ← spaced do
          let _ ← symbol '+'
          let _ ← gap
          operand inner
        pure (first, more))
      (first ++ (items.flatMap text ++ rest)) fun y r =>
        view y.1 = x ∧ y.2.map view = items.map g ∧ afterGap r = afterGap rest := by
    refine hfirst.bind fun e r he => Reads.gap_bind fun _ => ?_
    refine (hseries.spaced hends (Fails.symbol hplus).bind (afterGap_afterGap _) he.2).bind
      fun es r hes => Reads.pure ⟨he.1, hes.1, hes.2⟩
  refine Reads.named (reads_located_bind (takes_operands htakes) hparts
    fun y r place taken hy htaken => ?_)
  obtain ⟨e, es⟩ := y
  obtain ⟨rfl, hes, hend⟩ := hy
  -- a single operand is not made a sum
  cases es with
  | nil =>
    rw [← hes]
    exact Reads.pure ⟨.single, hend⟩
  | cons second more =>
    rw [← hes]
    exact Reads.pure ⟨.sum place htaken, hend⟩

end Parts

end TagTemplate.Grammar
