import TagTemplate.Proofs.Expression.Invariant

/-!
# What a reader takes of a text

A reader moves over a text and never back: what it has read is the front of the text, and where it
stops is the place behind it. `Takes` says this of a reader and adds that the front is well quoted.
It holds of every lexeme and is kept by every way in which readers are made (`closed_takes`), so it
holds of every rule of the argument language, and of whole texts:

> `Expr.wellQuoted_of_read`, `Argument.wellQuoted_of_readList`: a text that can be read as an
> expression or as an argument list is well quoted.
-/

namespace TagTemplate.Reader

open Lexeme (IsPlain WellQuoted TakesQuoted)

variable {α β : Type} {p q : Reader α}

/-- Whatever the reader reads, it has taken well-quoted text and stands behind it. -/
def Takes (p : Reader α) : Prop :=
  ∀ c a d, p.read? c = some (a, d) →
    ∃ taken, WellQuoted taken ∧ c.rest = taken ++ d.rest ∧ d.position = c.position.after taken

theorem Takes.fail : Takes (fail : Reader α) := by
  intro c a d h
  rw [read?_fail] at h
  cases h

theorem Takes.pure (a : α) : Takes (pure a : Reader α) := by
  intro c b d h
  rw [read?_pure] at h
  cases h
  exact ⟨[], .nil, rfl, rfl⟩

theorem Takes.bind {f : α → Reader β} (hp : Takes p) (hf : ∀ a, Takes (f a)) :
    Takes (p >>= f) := by
  intro c b e h
  rw [read?_bind] at h
  obtain ⟨⟨a, d⟩, hread, hnext⟩ := Option.bind_eq_some_iff.mp h
  obtain ⟨first, hfirst, hrest, hplace⟩ := hp c a d hread
  obtain ⟨second, hsecond, hrest', hplace'⟩ := hf a d b e hnext
  refine ⟨first ++ second, hfirst.append hsecond, ?_, ?_⟩
  · rw [hrest, hrest', List.append_assoc]
  · rw [hplace', hplace, Position.after_append]

theorem Takes.orElse (hp : Takes p) (hq : Takes q) : Takes (p <|> q) := by
  intro c a d h
  rw [read?_orElse] at h
  rcases Option.or_eq_some_iff.mp h with hread | ⟨-, hread⟩
  · exact hp c a d hread
  · exact hq c a d hread

theorem Takes.upTo (hp : Takes p) (n : Nat) : Takes (p.upTo n) := by
  induction n with
  | zero => exact .pure []
  | succ n ih => exact (hp.bind fun _ => ih.bind fun _ => .pure _).orElse (.pure [])

theorem Takes.many (hp : Takes p) : Takes (many p) :=
  fun c a d h => hp.upTo (c.rest.length + 1) c a d h

theorem Takes.named {rule : Rule} (hp : Takes p) : Takes (named rule p) := by
  intro c a d h
  rw [read?_named] at h
  exact hp c a d h

theorem Takes.located (hp : Takes p) : Takes (located p) := by
  intro c x d h
  rw [read?_located] at h
  obtain ⟨⟨a, e⟩, hread, heq⟩ := Option.map_eq_some_iff.mp h
  cases heq
  exact hp c a d hread

theorem Takes.lexeme {split : List Char → Lexeme.Split} (h : ∀ cs, TakesQuoted cs (split cs)) :
    Takes (lexeme split) := by
  intro c a d hread
  rw [read?_lexeme] at hread
  obtain ⟨⟨taken, rest⟩, hsplit, heq⟩ := Option.map_eq_some_iff.mp hread
  cases heq
  obtain ⟨hrest, htaken⟩ := h c.rest _ _ hsplit
  exact ⟨a, htaken, hrest, rfl⟩

theorem Takes.endOfInput : Takes endOfInput := by
  intro c a d h
  rw [read?_endOfInput] at h
  split at h
  next =>
    cases h
    exact ⟨[], .nil, rfl, rfl⟩
  next => cases h

theorem closed_takes : Closed @Takes where
  fail := .fail
  pure := .pure
  bind := .bind
  orElse := .orElse
  many := .many
  named := .named
  located := .located
  lexeme := .lexeme
  endOfInput := .endOfInput

theorem Takes.optional (hp : Takes p) : Takes (optional p) :=
  closed_takes.optional hp

theorem Takes.symbol {ch : Char} (h : IsPlain ch) : Takes (symbol ch) :=
  closed_takes.symbol h

theorem Takes.gap : Takes gap :=
  closed_takes.gap

theorem Takes.spaced (hp : Takes p) : Takes (spaced p) :=
  closed_takes.spaced hp

/-- The reader leaves nothing of the text. -/
def Exhausts (p : Reader α) : Prop :=
  ∀ c a d, p.read? c = some (a, d) → d.rest = []

theorem Exhausts.bind {f : α → Reader β} (hf : ∀ a, Exhausts (f a)) : Exhausts (p >>= f) := by
  intro c b e h
  rw [read?_bind] at h
  obtain ⟨⟨a, d⟩, -, hnext⟩ := Option.bind_eq_some_iff.mp h
  exact hf a d b e hnext

theorem Exhausts.named {rule : Rule} (hp : Exhausts p) : Exhausts (named rule p) := by
  intro c a d h
  rw [read?_named] at h
  exact hp c a d h

theorem exhausts_endOfInput (a : α) : Exhausts (endOfInput >>= fun _ => pure a) := by
  intro c b d h
  rw [read?_bind, read?_endOfInput] at h
  split at h
  next hempty =>
    cases h
    exact List.isEmpty_iff.mp hempty
  next => cases h

end TagTemplate.Reader

namespace TagTemplate.Grammar

open Reader
open Lexeme (IsPlain WellQuoted TakesQuoted)

/-! ## The rules of the language -/

theorem takes_lexical (rule : Rule) {split : List Char → Lexeme.Split}
    (h : ∀ cs, TakesQuoted cs (split cs)) : Takes (lexical rule split) :=
  closed_takes.lexical rule h

theorem takes_nameToken {p : Reader (List Char)} (h : Takes p) : Takes (nameToken p) :=
  closed_takes.nameToken h

theorem takes_key : Takes key :=
  closed_takes.key

/-- What may stand between two brackets. -/
theorem takes_items {α : Type} {item : Reader α} (hitem : Takes item) :
    Takes (do
      let first ← item
      let _ ← gap
      let more ← spaced (do let _ ← symbol ','; let _ ← gap; item)
      let _ ← gap
      let _ ← optional (symbol ',')
      Pure.pure (first :: more)) :=
  closed_takes.items hitem

theorem takes_bracketed {α : Type} {opening closing : Char} {item : Reader α}
    (hopening : IsPlain opening) (hclosing : IsPlain closing) (hitem : Takes item) :
    Takes (bracketed opening closing item) :=
  closed_takes.bracketed hitem hopening hclosing

section Inner

variable {inner : Reader Expr} (h : Takes inner)
include h

theorem takes_list : Takes (list inner) :=
  closed_takes.list h

theorem takes_dictItem : Takes (dictItem inner) :=
  closed_takes.dictItem h

theorem takes_dict : Takes (dict inner) :=
  closed_takes.dict h

theorem takes_filter : Takes (filter inner) :=
  closed_takes.filter h

theorem takes_filterChain : Takes (filterChain inner) :=
  closed_takes.filterChain h

theorem takes_operand : Takes (operand inner) :=
  closed_takes.operand h

/-- Operands with pluses between them. -/
theorem takes_operands : Takes (do
    let first ← operand inner
    let _ ← gap
    let more ← spaced (do let _ ← symbol '+'; let _ ← gap; operand inner)
    Pure.pure (first, more)) :=
  closed_takes.operands h

theorem takes_expression : Takes (expression inner) :=
  closed_takes.expression h

theorem takes_argument : Takes (argument inner) :=
  closed_takes.argument h

theorem takes_signature : Takes (signature inner) :=
  closed_takes.signature h

theorem takes_output : Takes (output inner) :=
  closed_takes.output h

end Inner

theorem exhausts_signature (inner : Reader Expr) : Exhausts (signature inner) :=
  Exhausts.named (.bind fun _ => .bind fun _ => .bind fun _ => exhausts_endOfInput _)

theorem exhausts_output (inner : Reader Expr) : Exhausts (output inner) :=
  Exhausts.named (.bind fun _ => .bind fun _ => .bind fun _ => exhausts_endOfInput _)

theorem takes_expressionAt (n : Nat) : Takes (expressionAt n) :=
  closed_takes.expressionAt n

end TagTemplate.Grammar

namespace TagTemplate

open Reader Grammar
open Lexeme (WellQuoted)

/-! ## Whole texts -/

/-- A whole text is read from its beginning, with a bound on brackets that its length gives. -/
theorem Reader.readAll_eq_ok_iff {α : Type} {p : Reader Expr → Reader α} {text : String} {a : α} :
    Reader.readAll p text = .ok a ↔
      ∃ d, (p (expressionAt (text.toList.length + 1))).read? ⟨text.toList, .start⟩
        = some (a, d) := by
  unfold Reader.readAll Reader.read?
  dsimp only
  constructor
  · intro h
    split at h
    next hresult =>
      cases h
      exact ⟨_, hresult⟩
    next => cases h
  · intro ⟨d, h⟩
    rw [h]

/-- A text that is read to its end is well quoted. -/
theorem Reader.wellQuoted_of_readAll {α : Type} {p : Reader Expr → Reader α} {text : String} {a : α}
    (htakes : ∀ inner, Takes inner → Takes (p inner)) (hall : ∀ inner, Exhausts (p inner))
    (h : Reader.readAll p text = .ok a) : WellQuoted text.toList := by
  obtain ⟨d, hread⟩ := readAll_eq_ok_iff.mp h
  obtain ⟨taken, htaken, hrest, -⟩ := htakes _ (takes_expressionAt _) _ a d hread
  have hnone : d.rest = [] := hall _ _ a d hread
  rw [hnone, List.append_nil] at hrest
  rwa [show text.toList = taken from hrest]

/-- The text of an expression is well quoted. -/
theorem Expr.wellQuoted_of_read {text : String} {e : Expr} (h : Expr.read text = .ok e) :
    WellQuoted text.toList :=
  wellQuoted_of_readAll (fun _ => takes_output) exhausts_output h

/-- An argument list is read as a signature without empty keys. -/
theorem Argument.readList_eq_ok_iff {text : String} {args : List Argument} :
    Argument.readList text = .ok args ↔
      Reader.readAll signature text = .ok args ∧
        (args.any fun a => a.key.any (·.text.isEmpty)) = false := by
  unfold Argument.readList
  cases Reader.readAll signature text with
  | error e => exact ⟨fun h => (by cases h), fun h => (by cases h.1)⟩
  | ok found =>
    dsimp only
    split
    next hempty =>
      refine ⟨fun h => (by cases h), fun ⟨heq, hnone⟩ => ?_⟩
      cases heq
      rw [hempty] at hnone
      cases hnone
    next hempty =>
      rw [Bool.not_eq_true] at hempty
      refine ⟨fun h => ?_, fun h => h.1⟩
      cases h
      exact ⟨rfl, hempty⟩

/-- The text of an argument list is well quoted. -/
theorem Argument.wellQuoted_of_readList {text : String} {args : List Argument}
    (h : Argument.readList text = .ok args) : WellQuoted text.toList :=
  wellQuoted_of_readAll (fun _ => takes_signature) exhausts_signature
    (readList_eq_ok_iff.mp h).1

end TagTemplate
