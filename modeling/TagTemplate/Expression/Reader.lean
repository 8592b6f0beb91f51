import TagTemplate.Expression.Lexeme
import TagTemplate.Expression.Rule
import TagTemplate.Expression.Tree

/-!
# Readers

A reader takes a part of the text at a cursor, or fails and takes nothing. Besides what it read,
its outcome says how it changes the record of failed rules, from which unreadable text is
reported. That record never influences what is read: the result of an outcome does not see it.

The record keeps the rules that failed at the furthest place reached so far. A rule that fails
without progress stands for the rules inside it that failed at the same place, unless there was
exactly one of them, which then is the better report and stays.
-/

namespace TagTemplate

/-- The text still to be read, and where it begins. -/
structure Cursor where
  rest : List Char
  position : Position

/-- The rules that failed at the furthest offset. -/
structure Attempts where
  offset : Nat
  rules : List Rule

namespace Attempts

/-- The record before anything was read. -/
def none : Attempts :=
  ⟨0, []⟩

/-- How many failures are recorded at an offset. -/
def countAt (a : Attempts) (offset : Nat) : Nat :=
  if offset = a.offset then a.rules.length else 0

/-- Records that a rule failed that was tried at `offset`; `before` is the record at that time and
`after` the record when the parts of the rule had been tried. -/
def record (rule : Rule) (offset : Nat) (before after : Attempts) : Attempts :=
  let known := before.countAt offset
  if after.countAt offset = known + 1 then after
  else if offset < after.offset then after
  else ⟨offset, (if offset = after.offset then after.rules.take known else []) ++ [rule]⟩

end Attempts

/-- What a reader read and where it stopped, if it did not fail; and what became of the record of
failed rules. -/
structure Outcome (α : Type) where
  result : Option (α × Cursor)
  attempts : Attempts → Attempts

/-- A reader of a part of the text. -/
structure Reader (α : Type) where
  run : Cursor → Outcome α

namespace Reader

variable {α β : Type}

instance : Monad Reader where
  pure a := ⟨fun c => ⟨some (a, c), id⟩⟩
  bind p f := ⟨fun c =>
    let first := p.run c
    match first.result with
    | none => ⟨none, first.attempts⟩
    | some (a, c) =>
      let second := (f a).run c
      ⟨second.result, second.attempts ∘ first.attempts⟩⟩

/-- Reads nothing and fails. -/
def fail : Reader α :=
  ⟨fun _ => ⟨none, id⟩⟩

/-- A reader that is built when it is run. -/
def delayed (p : Unit → Reader α) : Reader α :=
  ⟨fun c => (p ()).run c⟩

theorem delayed_eq (p : Unit → Reader α) : delayed p = p () := rfl

/-- Reads with `p`, or from the same place with `q` if `p` fails. -/
def orElse (p : Reader α) (q : Unit → Reader α) : Reader α :=
  ⟨fun c =>
    let first := p.run c
    match first.result with
    | some _ => first
    | none =>
      let second := (q ()).run c
      ⟨second.result, second.attempts ∘ first.attempts⟩⟩

instance : OrElse (Reader α) where
  orElse := orElse

/-- Reads with `p` if that is possible. -/
def optional (p : Reader α) : Reader (Option α) :=
  (some <$> p) <|> pure none

/-- Reads with `p` as often as possible, at most `n` times. -/
def upTo (p : Reader α) : (n : Nat) → Reader (List α)
  | 0 => pure []
  | n + 1 => (do let a ← p; let as ← p.upTo n; pure (a :: as)) <|> pure []

/-- Reads with `p` as often as possible, where `p` takes at least one character. Even at the end of
the text `p` is tried once more, so that its failure is recorded. -/
def many (p : Reader α) : Reader (List α) :=
  ⟨fun c => (p.upTo (c.rest.length + 1)).run c⟩

/-- Takes what a lexeme function splits off. -/
def lexeme (split : List Char → Lexeme.Split) : Reader (List Char) :=
  ⟨fun c =>
    match split c.rest with
    | some (taken, rest) => ⟨some (taken, ⟨rest, c.position.after taken⟩), id⟩
    | none => ⟨none, id⟩⟩

/-- Takes one given character. -/
def symbol (ch : Char) : Reader (List Char) :=
  lexeme fun
    | [] => none
    | c :: cs => if c = ch then some ([c], cs) else none

/-- Takes the gap before the next lexeme, which may be empty. -/
def gap : Reader (List Char) :=
  lexeme fun cs => some (cs.takeWhile Lexeme.isGap, cs.dropWhile Lexeme.isGap)

/-- Reads with `p` any number of times, over the gaps between; the gap after the last time is not
taken. -/
def spaced (p : Reader α) : Reader (List α) :=
  (do
    let a ← p
    let as ← many (do let _ ← gap; p)
    pure (a :: as)) <|> pure []

/-- Reads with `p` under the name of a rule, whose failure is recorded. -/
def named (rule : Rule) (p : Reader α) : Reader α :=
  ⟨fun c =>
    let o := p.run c
    match o.result with
    | some _ => o
    | none => ⟨none, fun before => .record rule c.position.offset before (o.attempts before)⟩⟩

/-- Reads with `p` and tells where it began and what text it took. -/
def located (p : Reader α) : Reader (α × Position × List Char) :=
  ⟨fun c =>
    let o := p.run c
    ⟨o.result.map fun (a, d) =>
      ((a, c.position, c.rest.take (c.rest.length - d.rest.length)), d), o.attempts⟩⟩

/-- Takes nothing, at the end of the text only. -/
def endOfInput : Reader Unit :=
  named .endOfInput
    ⟨fun c => if c.rest.isEmpty then ⟨some ((), c), id⟩ else ⟨none, id⟩⟩

/-! ## What is read

`read?` is what a reader reads at a cursor. It can be computed without the record of failed rules:
each lemma below gives it for one way of making a reader, in terms of the `read?` of its parts.
-/

/-- What a reader reads at a cursor, and where it stops. -/
def read? (p : Reader α) (c : Cursor) : Option (α × Cursor) :=
  (p.run c).result

@[simp] theorem read?_pure (a : α) (c : Cursor) :
    read? (pure a : Reader α) c = some (a, c) := rfl

@[simp] theorem read?_fail (c : Cursor) : read? (fail : Reader α) c = none := rfl

@[simp] theorem read?_bind (p : Reader α) (f : α → Reader β) (c : Cursor) :
    (p >>= f).read? c = (p.read? c).bind fun (a, d) => (f a).read? d := by
  show ((p >>= f).run c).result = (p.run c).result.bind _
  simp only [bind]
  cases (p.run c).result <;> rfl

@[simp] theorem read?_map (f : α → β) (p : Reader α) (c : Cursor) :
    (f <$> p).read? c = (p.read? c).map fun (a, d) => (f a, d) := by
  show (p >>= (pure ∘ f)).read? c = _
  rw [read?_bind]
  cases p.read? c <;> rfl

@[simp] theorem read?_orElse (p q : Reader α) (c : Cursor) :
    (p <|> q).read? c = (p.read? c).or (q.read? c) := by
  show ((orElse p fun _ => q).run c).result = ((p.run c).result).or (q.run c).result
  simp only [orElse]
  split <;> rename_i h <;> simp [h]

@[simp] theorem read?_optional (p : Reader α) (c : Cursor) :
    (optional p).read? c =
      some ((p.read? c).elim (none, c) fun (a, d) => (some a, d)) := by
  rw [optional, read?_orElse, read?_map, read?_pure]
  cases p.read? c <;> rfl

@[simp] theorem read?_lexeme (split : List Char → Lexeme.Split) (c : Cursor) :
    (lexeme split).read? c =
      (split c.rest).map fun (taken, rest) => (taken, ⟨rest, c.position.after taken⟩) := by
  show ((lexeme split).run c).result = _
  simp only [lexeme]
  split <;> rename_i h <;> simp [h]

@[simp] theorem read?_named (rule : Rule) (p : Reader α) (c : Cursor) :
    (named rule p).read? c = p.read? c := by
  show ((named rule p).run c).result = (p.run c).result
  simp only [named]
  split <;> rename_i h <;> simp [h]

@[simp] theorem read?_located (p : Reader α) (c : Cursor) :
    (located p).read? c =
      (p.read? c).map fun (a, d) =>
        ((a, c.position, c.rest.take (c.rest.length - d.rest.length)), d) := rfl

@[simp] theorem read?_endOfInput (c : Cursor) :
    endOfInput.read? c = if c.rest.isEmpty then some ((), c) else none := by
  rw [endOfInput, read?_named]
  show (if c.rest.isEmpty then (⟨some ((), c), id⟩ : Outcome Unit) else ⟨none, id⟩).result = _
  split <;> rfl

end Reader

end TagTemplate
