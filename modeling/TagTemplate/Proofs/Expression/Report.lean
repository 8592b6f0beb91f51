import TagTemplate.Proofs.Expression.Placed

/-!
# Reports point into the text

A text that cannot be read is reported at the furthest place at which a rule failed. The record of
failed rules only takes places at which a reader was tried, and a reader is only tried where another
one has stopped. So the record is at a place between two characters of the text as long as it was
before (`Records`). That is so for every way of making readers, together with what is taken of the
text, and hence for the whole language.

> `Expr.exists_front_of_read`, `Argument.exists_front_of_readList`: the offset of a report is that of
> a place in the text, its end included.
-/

namespace TagTemplate

/-- The record is at a place in the source. -/
def Attempts.StandsIn (source : List Char) (r : Attempts) : Prop :=
  ∃ front back, source = front ++ back ∧ r.offset = byteSize front

/-- The offset of a cursor in the source is that of a place in it. -/
theorem Cursor.StandsIn.exists_front {source : List Char} {c : Cursor} (hc : c.StandsIn source) :
    ∃ front back, source = front ++ back ∧ c.position.offset = byteSize front := by
  obtain ⟨front, hmoves⟩ := hc
  refine ⟨front, c.rest, hmoves.rest, ?_⟩
  rw [hmoves.offset_eq]
  exact Nat.zero_add _

/-- A failed rule is recorded at the place where it was tried, or what is recorded stays. -/
theorem Attempts.StandsIn.record {source : List Char} {c : Cursor} {before after : Attempts}
    (h : after.StandsIn source) (hc : c.StandsIn source) (rule : Rule) :
    (Attempts.record rule c.position.offset before after).StandsIn source := by
  unfold Attempts.record
  dsimp only
  split
  next => exact h
  next =>
    split
    next => exact h
    next => exact hc.exists_front

namespace Reader

/-- Wherever the reader is tried in a source, the record of failed rules stays at a place in it. -/
def Records {α : Type} (p : Reader α) : Prop :=
  ∀ source c r, c.StandsIn source → r.StandsIn source → ((p.run c).attempts r).StandsIn source

/-- The reader takes the front of a text, and the record stays in the text. -/
structure Stays {α : Type} (p : Reader α) : Prop where
  takes : Takes p
  records : Records p

section Combinations

variable {α β : Type} {p q : Reader α}

theorem Takes.standsIn (hp : Takes p) {source : List Char} {c d : Cursor} {a : α}
    (hc : c.StandsIn source) (h : (p.run c).result = some (a, d)) : d.StandsIn source := by
  obtain ⟨taken, hmoves⟩ := hp.moves h
  exact hc.moves hmoves

theorem Records.bind {f : α → Reader β} (htakes : Takes p) (hp : Records p)
    (hf : ∀ a, Records (f a)) : Records (p >>= f) := by
  intro source c r hc hr
  have hfirst := hp source c r hc hr
  simp only [Bind.bind]
  split
  next => exact hfirst
  next a d hresult => exact hf a source d _ (htakes.standsIn hc hresult) hfirst

theorem Records.orElse (hp : Records p) (hq : Records q) : Records (p <|> q) := by
  intro source c r hc hr
  have hfirst := hp source c r hc hr
  show (((Reader.orElse p fun _ => q).run c).attempts r).StandsIn source
  unfold Reader.orElse
  dsimp only
  split
  next => exact hfirst
  next => exact hq source c _ hc hfirst

theorem Records.upTo (htakes : Takes p) (hp : Records p) (n : Nat) : Records (p.upTo n) := by
  induction n with
  | zero => exact fun source c r _ hr => hr
  | succ n ih =>
    refine Records.orElse (Records.bind htakes hp fun a => ?_) fun source c r _ hr => hr
    exact Records.bind (htakes.upTo n) ih fun as source c r _ hr => hr

theorem Records.named {rule : Rule} (hp : Records p) : Records (named rule p) := by
  intro source c r hc hr
  have hinside := hp source c r hc hr
  unfold Reader.named
  dsimp only
  split
  next => exact hinside
  next => exact hinside.record hc rule

theorem Records.lexeme (split : List Char → Lexeme.Split) : Records (lexeme split) := by
  intro source c r _ hr
  unfold Reader.lexeme
  dsimp only
  split <;> exact hr

theorem Records.endOfInput : Records endOfInput := by
  refine Records.named fun source c r _ hr => ?_
  dsimp only
  split <;> exact hr

end Combinations

theorem closed_stays : Closed @Stays where
  fail := ⟨.fail, fun _ _ _ _ hr => hr⟩
  pure a := ⟨.pure a, fun _ _ _ _ hr => hr⟩
  bind hp hf :=
    ⟨hp.takes.bind fun a => (hf a).takes, hp.records.bind hp.takes fun a => (hf a).records⟩
  orElse hp hq := ⟨hp.takes.orElse hq.takes, hp.records.orElse hq.records⟩
  many hp := ⟨hp.takes.many, fun _ c => hp.records.upTo hp.takes (c.rest.length + 1) _ c⟩
  named hp := ⟨hp.takes.named, hp.records.named⟩
  located hp := ⟨hp.takes.located, hp.records⟩
  lexeme h := ⟨.lexeme h, .lexeme _⟩
  endOfInput := ⟨.endOfInput, .endOfInput⟩

/-- The report on a text that cannot be read is at a place in the text. -/
theorem exists_front_of_readAll {α : Type} {p : Reader Expr → Reader α} {text : String}
    {e : ReadError} (hp : ∀ inner, Stays inner → Stays (p inner))
    (h : Reader.readAll p text = .error e) :
    ∃ front back offset, text.toList = front ++ back ∧ e.offset? = some offset ∧
      offset = byteSize front := by
  unfold Reader.readAll at h
  dsimp only at h
  split at h
  next => cases h
  next =>
    cases h
    have hstart : (Cursor.mk text.toList .start).StandsIn text.toList := ⟨[], .nil _⟩
    obtain ⟨front, back, hsplit, hoffset⟩ :=
      (hp _ (closed_stays.expressionAt _)).records _ _ .none hstart ⟨[], text.toList, rfl, rfl⟩
    exact ⟨front, back, _, hsplit, rfl, hoffset⟩

end Reader

open Reader

/-! ## Whole texts -/

theorem Expr.exists_front_of_read {text : String} {e : ReadError} (h : Expr.read text = .error e) :
    ∃ front back, text.toList = front ++ back ∧ e.offset?.getD 0 = byteSize front := by
  obtain ⟨front, back, offset, hsplit, hoffset, rfl⟩ :=
    exists_front_of_readAll (fun _ => closed_stays.output) h
  exact ⟨front, back, hsplit, by rw [hoffset]; rfl⟩

/-- An empty key is reported without an offset, which stands for the beginning. -/
theorem Argument.exists_front_of_readList {text : String} {e : ReadError}
    (h : Argument.readList text = .error e) :
    ∃ front back, text.toList = front ++ back ∧ e.offset?.getD 0 = byteSize front := by
  unfold Argument.readList at h
  split at h
  next =>
    split at h
    next =>
      cases h
      exact ⟨[], text.toList, rfl, rfl⟩
    next => cases h
  next e' hread =>
    cases h
    obtain ⟨front, back, offset, hsplit, hoffset, rfl⟩ :=
      exists_front_of_readAll (fun _ => closed_stays.signature) hread
    exact ⟨front, back, hsplit, by rw [hoffset]; rfl⟩

end TagTemplate
