import TagTemplate.Expression.Read
import TagTemplate.Proofs.Expression.WellQuoted

/-!
# Invariants of readers

A property of readers that every way of making readers keeps is a property of the whole grammar. Such
a property is `Closed`; that it is has to be shown once for each way of making readers, and here the
rules of the argument language follow, one lemma for each. A rule that reads expressions in brackets
has the property if the reader of these has it, and the bound on how deep brackets are nested ties the
knot:

> `Closed.expressionAt`: a closed property holds of the reader of expressions.

Of a lexeme it may be used that what is split off is the front of the text, and well quoted.
-/

namespace TagTemplate.Reader

open Lexeme (IsPlain TakesQuoted)

/-- Every way in which readers are made keeps the property. -/
structure Closed (P : ∀ {α : Type}, Reader α → Prop) : Prop where
  fail {α : Type} : P (fail : Reader α)
  pure {α : Type} (a : α) : P (pure a : Reader α)
  bind {α β : Type} {p : Reader α} {f : α → Reader β} (hp : P p) (hf : ∀ a, P (f a)) : P (p >>= f)
  orElse {α : Type} {p q : Reader α} (hp : P p) (hq : P q) : P (p <|> q)
  many {α : Type} {p : Reader α} (hp : P p) : P (many p)
  named {α : Type} {rule : Rule} {p : Reader α} (hp : P p) : P (named rule p)
  located {α : Type} {p : Reader α} (hp : P p) : P (located p)
  lexeme {split : List Char → Lexeme.Split} (hsplit : ∀ cs, TakesQuoted cs (split cs)) :
    P (lexeme split)
  endOfInput : P endOfInput

namespace Closed

variable {P : ∀ {α : Type}, Reader α → Prop} (hP : Closed P)
include hP

/-! ## Combinations -/

section Combinations

variable {α β : Type} {p : Reader α}

theorem map {f : α → β} (hp : P p) : P (f <$> p) :=
  hP.bind hp fun a => hP.pure (f a)

theorem optional (hp : P p) : P (optional p) :=
  hP.orElse (hP.map hp) (hP.pure none)

theorem symbol {ch : Char} (h : IsPlain ch) : P (symbol ch) := by
  refine hP.lexeme fun cs => ?_
  cases cs with
  | nil => exact Lexeme.takesQuoted_none _
  | cons c cs =>
    by_cases hc : c = ch
    · rw [hc]
      show TakesQuoted _ (if ch = ch then some ([ch], cs) else none)
      rw [if_pos rfl]
      exact Lexeme.takesQuoted_some (.plain h .nil) cs
    · show TakesQuoted _ (if c = ch then some ([c], cs) else none)
      rw [if_neg hc]
      exact Lexeme.takesQuoted_none _

theorem gap : P gap :=
  hP.lexeme (Lexeme.takesQuoted_run fun _ => Lexeme.isPlain_of_isGap)

theorem spaced (hp : P p) : P (spaced p) :=
  hP.orElse
    (hP.bind hp fun _ => hP.bind (hP.many (hP.bind hP.gap fun _ => hp)) fun _ => hP.pure _)
    (hP.pure [])

/-- What is read, behind a symbol and a gap. -/
theorem behind {ch : Char} (h : IsPlain ch) (hp : P p) :
    P (do let _ ← Reader.symbol ch; let _ ← Reader.gap; p) :=
  hP.bind (hP.symbol h) fun _ => hP.bind hP.gap fun _ => hp

end Combinations

/-! ## The rules of the language -/

section Lexemes

open Grammar

variable {p : Reader (List Char)}

theorem lexical (rule : Rule) {split : List Char → Lexeme.Split}
    (h : ∀ cs, TakesQuoted cs (split cs)) : P (lexical rule split) :=
  hP.named (hP.lexeme h)

theorem nameToken (hp : P p) : P (nameToken p) :=
  hP.bind (hP.located hp) fun (_, _, _) => hP.pure _

theorem stringLiteral : P stringLiteral :=
  hP.lexical _ Lexeme.takesQuoted_string?

theorem stringOr (hp : P p) : P (stringOr p) :=
  hP.orElse (hP.map hP.stringLiteral) hp

theorem key : P key :=
  hP.named (hP.nameToken (hP.stringOr (hP.lexical _ Lexeme.takesQuoted_dashedName?)))

theorem dictKey : P dictKey :=
  hP.named (hP.nameToken (hP.stringOr (hP.lexical _ Lexeme.takesQuoted_name?)))

theorem literal {kind : Expr.Kind} (hp : P p) : P (literal kind p) :=
  hP.bind (hP.located hp) fun (_, _, _) => hP.pure _

theorem textLiteral : P textLiteral :=
  hP.bind (hP.located hP.stringLiteral) fun (_, _, _) => hP.pure _

end Lexemes

section Brackets

variable {α : Type} {item : Reader α} (hitem : P item)
include hitem

/-- What may stand between two brackets. -/
theorem items : P (do
      let first ← item
      let _ ← Reader.gap
      let more ← Reader.spaced (do let _ ← Reader.symbol ','; let _ ← Reader.gap; item)
      let _ ← Reader.gap
      let _ ← Reader.optional (Reader.symbol ',')
      Pure.pure (first :: more)) :=
  hP.bind hitem fun _ => hP.bind hP.gap fun _ =>
    hP.bind (hP.spaced (hP.behind (by decide) hitem)) fun _ => hP.bind hP.gap fun _ =>
      hP.bind (hP.optional (hP.symbol (by decide))) fun _ => hP.pure _

theorem bracketed {opening closing : Char} (hopening : IsPlain opening) (hclosing : IsPlain closing) :
    P (Grammar.bracketed opening closing item) :=
  hP.bind (hP.symbol hopening) fun _ => hP.bind hP.gap fun _ =>
    hP.bind (hP.optional (hP.items hitem)) fun _ => hP.bind hP.gap fun _ =>
      hP.bind (hP.symbol hclosing) fun _ => hP.pure _

end Brackets

section Inner

open Grammar

variable {inner : Reader Expr} (h : P inner)
include h

theorem group : P (group inner) :=
  hP.named (hP.behind (by decide) (hP.bind h fun _ => hP.bind hP.gap fun _ =>
    hP.bind (hP.symbol (by decide)) fun _ => hP.pure _))

theorem list : P (list inner) :=
  hP.bind (hP.located (hP.named (hP.bracketed h (by decide) (by decide)))) fun (_, _, _) => hP.pure _

theorem dictItem : P (dictItem inner) :=
  hP.named (hP.bind hP.dictKey fun _ => hP.bind hP.gap fun _ =>
    hP.behind (by decide) (hP.bind h fun _ => hP.pure _))

theorem dict : P (dict inner) :=
  hP.bind (hP.located (hP.named (hP.bracketed (hP.dictItem h) (by decide) (by decide))))
    fun (_, _, _) => hP.pure _

theorem primary : P (primary inner) := by
  have hfloat := hP.lexical .float Lexeme.takesQuoted_float?
  have hint := hP.lexical .int Lexeme.takesQuoted_int?
  have hbool := hP.lexical .boolean Lexeme.takesQuoted_boolean?
  have hnull := hP.lexical .null Lexeme.takesQuoted_null?
  have hpath := hP.lexical .path Lexeme.takesQuoted_path?
  exact hP.orElse (hP.group h) <| hP.orElse (hP.list h) <| hP.orElse (hP.dict h) <|
    hP.orElse (hP.literal hfloat) <| hP.orElse (hP.literal hint) <| hP.orElse (hP.literal hbool) <|
    hP.orElse (hP.literal hnull) <| hP.orElse hP.textLiteral (hP.literal hpath)

theorem filter : P (filter inner) := by
  have hname := hP.nameToken (hP.lexical .filterName Lexeme.takesQuoted_name?)
  have hargs : P (Reader.optional (Reader.named .filterArgs (Grammar.bracketed '(' ')' inner))) :=
    hP.optional (hP.named (hP.bracketed h (by decide) (by decide)))
  refine hP.named (hP.bind (hP.located ?_) fun ((_, _), _, _) => hP.pure _)
  exact hP.behind (by decide) (hP.bind hname fun _ => hP.bind hP.gap fun _ =>
    hP.bind hargs fun _ => hP.pure _)

theorem filterChain : P (filterChain inner) :=
  hP.named (hP.bind (hP.filter h) fun _ => hP.bind hP.gap fun _ =>
    hP.bind (hP.spaced (hP.filter h)) fun _ => hP.pure _)

theorem operand : P (operand inner) := by
  refine hP.named (hP.bind (hP.located ?_) fun ((_, _), _, _) => hP.pure _)
  exact hP.bind (hP.primary h) fun _ => hP.bind hP.gap fun _ =>
    hP.bind (hP.optional (hP.filterChain h)) fun _ => hP.pure _

/-- Operands with pluses between them. -/
theorem operands : P (do
    let first ← Grammar.operand inner
    let _ ← Reader.gap
    let more ← Reader.spaced (do let _ ← Reader.symbol '+'; let _ ← Reader.gap; Grammar.operand inner)
    Pure.pure (first, more)) :=
  hP.bind (hP.operand h) fun _ => hP.bind hP.gap fun _ =>
    hP.bind (hP.spaced (hP.behind (by decide) (hP.operand h))) fun _ => hP.pure _

theorem expression : P (expression inner) := by
  refine hP.named (hP.bind (hP.located (hP.operands h)) fun ((_, more), _, _) => ?_)
  cases more with
  | nil => exact hP.pure _
  | cons => exact hP.pure _

theorem argument : P (argument inner) := by
  refine hP.named (hP.bind (hP.located (hP.orElse ?_ ?_)) fun ((_, _), _, _) => hP.pure _)
  · exact hP.bind hP.key fun _ => hP.bind hP.gap fun _ =>
      hP.behind (by decide) (hP.bind (hP.expression h) fun _ => hP.pure _)
  · exact hP.bind (hP.expression h) fun _ => hP.pure _

theorem signature : P (signature inner) := by
  have hitem : P (do
      let a ← Grammar.argument inner
      let _ ← Reader.gap
      let _ ← Reader.optional (Reader.symbol ',')
      Pure.pure a) :=
    hP.bind (hP.argument h) fun _ => hP.bind hP.gap fun _ =>
      hP.bind (hP.optional (hP.symbol (by decide))) fun _ => hP.pure _
  exact hP.named (hP.bind hP.gap fun _ => hP.bind (hP.spaced hitem) fun _ =>
    hP.bind hP.gap fun _ => hP.bind hP.endOfInput fun _ => hP.pure _)

theorem output : P (output inner) :=
  hP.named (hP.bind hP.gap fun _ => hP.bind (hP.expression h) fun _ => hP.bind hP.gap fun _ =>
    hP.bind hP.endOfInput fun _ => hP.pure _)

end Inner

/-- The induction is on how deep brackets may be nested. -/
theorem expressionAt (n : Nat) : P (Grammar.expressionAt n) := by
  induction n with
  | zero => exact hP.fail
  | succ n ih =>
    rw [Grammar.expressionAt_succ]
    exact hP.expression ih

end Closed

end TagTemplate.Reader
