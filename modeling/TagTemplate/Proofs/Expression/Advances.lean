import TagTemplate.Proofs.Expression.Takes

/-!
# Repetitions come to an end

A reader that is repeated takes at least one character every time, so that the bound on the number of
its rounds, which is given by the text, is never reached. `Advances` says this of a reader. It takes
one part of a rule that advances, as every bracket and every lexeme does, while the other parts only
must not go back (`Takes`).

> `read?_upTo_of_advances`: a reader that advances is repeated equally often with any bound larger
> than the text.
> `advances_argument`: an argument is never read of nothing.
-/

namespace TagTemplate

namespace Lexeme

/-! ## No lexeme is empty -/

/-- Whatever is split off has at least one character. -/
def NeverEmpty (split : List Char → Split) : Prop :=
  ∀ cs taken left, split cs = some (taken, left) → taken ≠ []

theorem neverEmpty_float? : NeverEmpty float? := by
  intro cs taken left h
  obtain ⟨ds, fs, rfl | rfl, -⟩ := float?_eq_some h
  · exact List.append_ne_nil_of_right_ne_nil ds (List.cons_ne_nil _ _)
  · exact List.cons_ne_nil _ _

theorem neverEmpty_int? : NeverEmpty int? := by
  intro cs taken left h
  obtain ⟨ds, rfl | rfl, hne, -⟩ := signedDigits?_eq_some (wholeWord_eq_some_iff.mp h).1
  · exact hne
  · exact List.cons_ne_nil _ _

theorem neverEmpty_word? {words : List String} (hwords : ∀ w ∈ words, w.toList ≠ []) :
    NeverEmpty (word? words) := by
  intro cs taken left h
  obtain ⟨w, hw, rfl, -, -⟩ := word?_eq_some h
  exact hwords w hw

theorem neverEmpty_boolean? : NeverEmpty boolean? :=
  neverEmpty_word? (by decide)

theorem neverEmpty_null? : NeverEmpty null? :=
  neverEmpty_word? (by decide)

theorem neverEmpty_path? : NeverEmpty path? := by
  intro cs taken left h
  cases cs with
  | nil => cases h
  | cons c cs =>
    rw [path?] at h
    split at h
    next =>
      cases h
      exact List.cons_ne_nil _ _
    next => cases h

theorem neverEmpty_string? : NeverEmpty string? := by
  intro cs taken left h
  unfold string? at h
  split at h
  next =>
    cases h
    exact List.cons_ne_nil _ _
  next =>
    obtain ⟨_, -, heq⟩ := Option.map_eq_some_iff.mp h
    cases heq
    exact List.cons_ne_nil _ _

end Lexeme

namespace Reader

open Lexeme (TakesQuoted NeverEmpty)

variable {α β : Type} {p q : Reader α}

/-! ## Readers that advance -/

/-- Whatever the reader reads, it has taken at least one character. -/
def Advances (p : Reader α) : Prop :=
  ∀ c a d, p.read? c = some (a, d) → d.rest.length < c.rest.length

theorem Takes.length_le (hp : Takes p) {c d : Cursor} {a : α} (h : p.read? c = some (a, d)) :
    d.rest.length ≤ c.rest.length := by
  obtain ⟨taken, -, hrest, -⟩ := hp c a d h
  rw [hrest, List.length_append]
  omega

theorem Advances.bind {f : α → Reader β} (hp : Advances p) (hf : ∀ a, Takes (f a)) :
    Advances (p >>= f) := by
  intro c b e h
  rw [read?_bind] at h
  obtain ⟨⟨a, d⟩, hread, hnext⟩ := Option.bind_eq_some_iff.mp h
  exact Nat.lt_of_le_of_lt ((hf a).length_le hnext) (hp c a d hread)

/-- Goes on with a reader that advances. -/
theorem Advances.next {f : α → Reader β} (hp : Takes p) (hf : ∀ a, Advances (f a)) :
    Advances (p >>= f) := by
  intro c b e h
  rw [read?_bind] at h
  obtain ⟨⟨a, d⟩, hread, hnext⟩ := Option.bind_eq_some_iff.mp h
  exact Nat.lt_of_lt_of_le (hf a d b e hnext) (hp.length_le hread)

theorem Advances.orElse (hp : Advances p) (hq : Advances q) : Advances (p <|> q) := by
  intro c a d h
  rw [read?_orElse] at h
  rcases Option.or_eq_some_iff.mp h with hread | ⟨-, hread⟩
  · exact hp c a d hread
  · exact hq c a d hread

theorem Advances.named {rule : Rule} (hp : Advances p) : Advances (named rule p) := by
  intro c a d h
  rw [read?_named] at h
  exact hp c a d h

theorem Advances.located (hp : Advances p) : Advances (located p) := by
  intro c x d h
  rw [read?_located] at h
  obtain ⟨⟨a, e⟩, hread, heq⟩ := Option.map_eq_some_iff.mp h
  cases heq
  exact hp c a d hread

theorem Advances.lexeme {split : List Char → Lexeme.Split} (h : ∀ cs, TakesQuoted cs (split cs))
    (hne : NeverEmpty split) : Advances (lexeme split) := by
  intro c a d hread
  rw [read?_lexeme] at hread
  obtain ⟨⟨taken, rest⟩, hsplit, heq⟩ := Option.map_eq_some_iff.mp hread
  cases heq
  obtain ⟨hrest, -⟩ := h c.rest _ _ hsplit
  have hpos := List.length_pos_iff.mpr (hne _ _ _ hsplit)
  rw [hrest, List.length_append]
  show rest.length < _
  omega

theorem Advances.symbol (ch : Char) : Advances (symbol ch) := by
  intro c a d h
  obtain ⟨rest, place⟩ := c
  unfold Reader.symbol at h
  rw [read?_lexeme] at h
  cases rest with
  | nil => cases h
  | cons e rest =>
    dsimp only at h
    split at h
    next =>
      cases h
      exact Nat.lt_succ_self _
    next => cases h

/-! ## Repetitions -/

/-- The induction is on the one bound; each round that is left takes a character. -/
theorem read?_upTo_of_advances (hp : Advances p) :
    ∀ {m n : Nat} {c : Cursor}, c.rest.length < m → c.rest.length < n →
      (p.upTo m).read? c = (p.upTo n).read? c := by
  intro m
  induction m with
  | zero => intro n c hm; omega
  | succ m ih =>
    intro n c hm hn
    obtain ⟨n, rfl⟩ := Nat.exists_eq_succ_of_ne_zero (Nat.ne_zero_of_lt hn)
    rw [upTo, upTo, read?_orElse, read?_orElse, read?_bind, read?_bind]
    cases hread : p.read? c with
    | none => rfl
    | some s =>
      obtain ⟨a, d⟩ := s
      have hless := hp c a d hread
      simp only [Option.bind_some, read?_bind]
      rw [ih (by omega) (show d.rest.length < n by omega)]

end Reader

namespace Grammar

open Reader
open Lexeme (TakesQuoted NeverEmpty IsPlain)

/-! ## The rules of the language -/

theorem advances_literal {kind : Expr.Kind} {rule : Rule} {split : List Char → Lexeme.Split}
    (h : ∀ cs, TakesQuoted cs (split cs)) (hne : NeverEmpty split) :
    Advances (literal kind (lexical rule split)) :=
  (Advances.lexeme h hne).named.located.bind fun (_, _, _) => .pure _

theorem advances_textLiteral : Advances textLiteral :=
  (Advances.lexeme Lexeme.takesQuoted_string? Lexeme.neverEmpty_string?).named.located.bind
    fun (_, _, _) => .pure _

theorem advances_bracketed {α : Type} {opening closing : Char} {item : Reader α}
    (hclosing : IsPlain closing) (hitem : Takes item) :
    Advances (bracketed opening closing item) :=
  (Advances.symbol opening).bind fun _ => Takes.gap.bind fun _ =>
    (takes_items hitem).optional.bind fun _ => Takes.gap.bind fun _ =>
      (Takes.symbol hclosing).bind fun _ => .pure _

section Inner

variable {inner : Reader Expr} (h : Takes inner)
include h

theorem advances_group : Advances (group inner) :=
  Advances.named ((Advances.symbol '(').bind fun _ => Takes.gap.bind fun _ => h.bind fun _ =>
    Takes.gap.bind fun _ => (Takes.symbol (by decide)).bind fun _ => .pure _)

theorem advances_list : Advances (list inner) :=
  (advances_bracketed (by decide) h).named.located.bind fun (_, _, _) => .pure _

theorem advances_dict : Advances (dict inner) :=
  (advances_bracketed (by decide) (takes_dictItem h)).named.located.bind fun (_, _, _) => .pure _

theorem advances_primary : Advances (primary inner) :=
  (advances_group h).orElse <| (advances_list h).orElse <| (advances_dict h).orElse <|
    (advances_literal Lexeme.takesQuoted_float? Lexeme.neverEmpty_float?).orElse <|
    (advances_literal Lexeme.takesQuoted_int? Lexeme.neverEmpty_int?).orElse <|
    (advances_literal Lexeme.takesQuoted_boolean? Lexeme.neverEmpty_boolean?).orElse <|
    (advances_literal Lexeme.takesQuoted_null? Lexeme.neverEmpty_null?).orElse <|
    advances_textLiteral.orElse <|
    advances_literal Lexeme.takesQuoted_path? Lexeme.neverEmpty_path?

/-- A filter begins with its bar. -/
theorem advances_filter : Advances (filter inner) := by
  have hname := takes_nameToken (takes_lexical .filterName Lexeme.takesQuoted_name?)
  have hargs : Takes (optional (named .filterArgs (bracketed '(' ')' inner))) :=
    (takes_bracketed (by decide) (by decide) h).named.optional
  refine Advances.named (Advances.bind (Advances.located ?_) fun ((_, _), _, _) => .pure _)
  exact (Advances.symbol '|').bind fun _ => Takes.gap.bind fun _ => hname.bind fun _ =>
    Takes.gap.bind fun _ => hargs.bind fun _ => .pure _

theorem advances_operand : Advances (operand inner) := by
  refine Advances.named (Advances.bind (Advances.located ?_) fun ((_, _), _, _) => .pure _)
  exact (advances_primary h).bind fun _ => Takes.gap.bind fun _ =>
    (takes_filterChain h).optional.bind fun _ => .pure _

theorem advances_expression : Advances (expression inner) := by
  have hplus : Takes (do let _ ← symbol '+'; let _ ← gap; operand inner) :=
    (Takes.symbol (by decide)).bind fun _ => Takes.gap.bind fun _ => takes_operand h
  refine Advances.named (Advances.bind (Advances.located ?_) fun ((_, more), _, _) => ?_)
  · exact (advances_operand h).bind fun _ => Takes.gap.bind fun _ => hplus.spaced.bind fun _ =>
      .pure _
  · cases more with
    | nil => exact .pure _
    | cons => exact .pure _

/-- A key alone might be empty, but not with the equals sign behind it. -/
theorem advances_argument : Advances (argument inner) := by
  refine Advances.named
    (Advances.bind (Advances.located (Advances.orElse ?_ ?_)) fun ((_, _), _, _) => .pure _)
  · exact Advances.next takes_key fun _ => Advances.next Takes.gap fun _ =>
      (Advances.symbol '=').bind fun _ => Takes.gap.bind fun _ => (takes_expression h).bind fun _ =>
        .pure _
  · exact (advances_expression h).bind fun _ => .pure _

end Inner

end Grammar

end TagTemplate
