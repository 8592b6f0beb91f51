import Mathlib.Data.List.Induction
import TagTemplate.Proofs.Position

/-!
# Lines and columns

A position is found by going over the characters in front of it, and each of them moves it: a line
feed to the beginning of the next line, any other character by one column. So positions come in
reading order, line by line and from left to right (`Precedes`), and whoever counts from some place
on, as the readers of arguments and outputs do, counts lines and columns that are only to be moved by
that place (`moved`). The one step that both facts rest on is that over one character.

> `line_after_start`, `column_after_start`: the line is one more than the line feeds in front, and the
> column is one more than the characters behind the last of them.
> `positionAt_precedes_and_moved`: offsets between characters are in the order of their lines and
> columns, and the position in a text is the one in its rest, moved by its front.
-/

namespace TagTemplate

namespace Position

variable {p q r : Position}

/-! ## One character -/

theorem step_of_eq {c : Char} (hc : c = '\n') (o l k : Nat) :
    step ⟨o, l, k⟩ c = ⟨o + c.utf8Size, l + 1, 1⟩ :=
  if_pos hc

theorem step_of_ne {c : Char} (hc : c ≠ '\n') (o l k : Nat) :
    step ⟨o, l, k⟩ c = ⟨o + c.utf8Size, l, k + 1⟩ :=
  if_neg hc

/-! ## Counting -/

theorem after_concat (p : Position) (cs : List Char) (c : Char) :
    p.after (cs ++ [c]) = (p.after cs).step c := by
  rw [after_append, after_cons, after_nil]

theorem line_after_start (cs : List Char) : (start.after cs).line = cs.count '\n' + 1 := by
  induction cs using List.reverseRecOn with
  | nil => rfl
  | append_singleton cs c ih =>
    rw [after_concat, List.count_append, List.count_singleton, step]
    by_cases hc : c = '\n'
    · simp [hc, ih]
    · simp [hc, ih]

theorem column_after_start (cs : List Char) :
    (start.after cs).column = (cs.reverse.takeWhile (· ≠ '\n')).length + 1 := by
  induction cs using List.reverseRecOn with
  | nil => rfl
  | append_singleton cs c ih =>
    rw [after_concat, List.reverse_append, List.reverse_singleton, List.singleton_append, step]
    by_cases hc : c = '\n'
    · simp [hc]
    · simp [hc, ih]

/-! ## Reading order -/

/-- The position is on an earlier line than the other one, or in front of it on the same line. -/
def Precedes (p q : Position) : Prop :=
  p.line < q.line ∨ (p.line = q.line ∧ p.column < q.column)

instance (p q : Position) : Decidable (p.Precedes q) :=
  inferInstanceAs (Decidable (_ ∨ _))

theorem Precedes.trans (hpq : p.Precedes q) (hqr : q.Precedes r) : p.Precedes r := by
  unfold Precedes at *
  omega

theorem Precedes.asymm (hpq : p.Precedes q) : ¬ q.Precedes p := by
  unfold Precedes at *
  omega

theorem precedes_step (p : Position) (c : Char) : p.Precedes (p.step c) := by
  unfold step
  split
  next => exact Or.inl (Nat.lt_succ_self p.line)
  next => exact Or.inr ⟨rfl, Nat.lt_succ_self p.column⟩

theorem precedes_after (p : Position) {cs : List Char} (hcs : cs ≠ []) : p.Precedes (p.after cs) := by
  induction cs generalizing p with
  | nil => exact absurd rfl hcs
  | cons c cs ih =>
    rw [after_cons]
    cases cs with
    | nil => exact precedes_step p c
    | cons d cs => exact (precedes_step p c).trans (ih (p.step c) (List.cons_ne_nil d cs))

/-! ## Counting from a place on -/

/-- The position `q` of a text that begins at `p`: its columns are added on the first line, and
afterwards its lines are added and its columns kept. -/
def moved (p q : Position) : Position :=
  if q.line = 1 then ⟨p.offset + q.offset, p.line, p.column + (q.column - 1)⟩
  else ⟨p.offset + q.offset, p.line + (q.line - 1), q.column⟩

theorem moved_first (p : Position) (o k : Nat) :
    p.moved ⟨o, 1, k + 1⟩ = ⟨p.offset + o, p.line, p.column + k⟩ := rfl

theorem moved_later (p : Position) (o l k : Nat) :
    p.moved ⟨o, l + 2, k⟩ = ⟨p.offset + o, p.line + (l + 1), k⟩ := rfl

/-- Going on by one character and moving may be done in either order. -/
theorem moved_step (p : Position) (hline : 0 < q.line) (hcolumn : 0 < q.column) (c : Char) :
    p.moved (q.step c) = (p.moved q).step c := by
  obtain ⟨o, line, column⟩ := q
  obtain ⟨k, rfl⟩ := Nat.exists_eq_add_one.mpr hcolumn
  obtain ⟨l, rfl⟩ := Nat.exists_eq_add_one.mpr hline
  have hoffset : p.offset + (o + c.utf8Size) = p.offset + o + c.utf8Size := (Nat.add_assoc ..).symm
  by_cases hc : c = '\n'
  · -- no column of `p` counts behind the line feed, whether it did in front of it or not
    rw [step_of_eq hc, moved_later, hoffset]
    cases l with
    | zero => rw [moved_first, step_of_eq hc]
    | succ l => rw [moved_later, step_of_eq hc, Nat.add_assoc p.line]
  · rw [step_of_ne hc]
    cases l with
    | zero => rw [moved_first, moved_first, step_of_ne hc, hoffset, Nat.add_assoc p.column]
    | succ l => rw [moved_later, moved_later, step_of_ne hc, hoffset]

theorem after_eq_moved (p : Position) (cs : List Char) : p.after cs = p.moved (start.after cs) := by
  induction cs using List.reverseRecOn with
  | nil => rfl
  | append_singleton cs c ih =>
    have hline : 0 < (start.after cs).line := by
      rw [line_after_start]
      exact Nat.succ_pos _
    have hcolumn : 0 < (start.after cs).column := by
      rw [column_after_start]
      exact Nat.succ_pos _
    rw [after_concat, after_concat, moved_step p hline hcolumn, ih]

end Position

/-! ## Offsets of a source -/

/-- The offset is that of a place between two characters of the source, or at one of its ends. -/
def IsBoundary (source : List Char) (offset : Nat) : Prop :=
  ∃ front back, source = front ++ back ∧ offset = byteSize front

theorem positionAt_byteSize (front back : List Char) :
    positionAt (front ++ back) (byteSize front) = Position.start.after front := by
  rw [positionAt, takeBytes_append]

theorem precedes_of_lt {source : List Char} {o₁ o₂ : Nat} (h₁ : IsBoundary source o₁)
    (h₂ : IsBoundary source o₂) (h : o₁ < o₂) :
    (positionAt source o₁).Precedes (positionAt source o₂) := by
  obtain ⟨front₁, back₁, hsource₁, rfl⟩ := h₁
  obtain ⟨front₂, back₂, hsource₂, rfl⟩ := h₂
  obtain ⟨middle, hmiddle, -⟩ :=
    exists_middle_of_byteSize_le (hsource₁.symm.trans hsource₂) (Nat.le_of_lt h)
  have hne : middle ≠ [] := by
    rintro rfl
    rw [hmiddle, List.append_nil] at h
    exact Nat.lt_irrefl _ h
  have hfront₁ := positionAt_byteSize front₁ back₁
  have hfront₂ := positionAt_byteSize front₂ back₂
  rw [← hsource₁] at hfront₁
  rw [← hsource₂, hmiddle, Position.after_append] at hfront₂
  rw [hfront₁, hmiddle, hfront₂]
  exact Position.precedes_after _ hne

theorem positionAt_append {front rest : List Char} {o : Nat} (h : IsBoundary rest o) :
    positionAt (front ++ rest) (byteSize front + o) =
      (positionAt (front ++ rest) (byteSize front)).moved (positionAt rest o) := by
  obtain ⟨inside, back, rfl, rfl⟩ := h
  rw [positionAt_byteSize, positionAt_byteSize, ← byteSize_append, ← List.append_assoc,
    positionAt_byteSize, Position.after_append, Position.after_eq_moved]

/-- Of two offsets between characters the smaller one is earlier in reading order and the other way
round, so line and column tell which offset it is. An offset in the rest of a text has its line and
column in the rest, moved by those of the place at which the rest begins. -/
theorem positionAt_precedes_and_moved :
    (∀ (source : List Char) (o₁ o₂ : Nat), IsBoundary source o₁ → IsBoundary source o₂ →
      (o₁ < o₂ ↔ (positionAt source o₁).Precedes (positionAt source o₂))) ∧
    ∀ (front rest : List Char) (o : Nat), IsBoundary rest o →
      positionAt (front ++ rest) (byteSize front + o) =
        (positionAt (front ++ rest) (byteSize front)).moved (positionAt rest o) := by
  constructor
  · intro source o₁ o₂ h₁ h₂
    constructor
    · exact precedes_of_lt h₁ h₂
    · intro hprecedes
      rcases Nat.lt_trichotomy o₁ o₂ with hlt | rfl | hgt
      · exact hlt
      · exact absurd hprecedes hprecedes.asymm
      · exact absurd hprecedes (precedes_of_lt h₂ h₁ hgt).asymm
  · intro front rest o h
    exact positionAt_append h

/-- The first half of a text with a blank line, behind a character of two bytes. -/
def blankLineFront : List Char :=
  ['é', '\n']

/-- The second half, which begins with a line feed and ends with a character of two bytes. -/
def blankLineRest : List Char :=
  ['\n', 'a', 'ü']

/-- On either side of a line feed, and in the rest behind another one. -/
theorem positionAt_precedes_and_moved_blankLine :
    IsBoundary (blankLineFront ++ blankLineRest) 2 ∧
    IsBoundary (blankLineFront ++ blankLineRest) 3 ∧
    (2 < 3 ↔ (positionAt (blankLineFront ++ blankLineRest) 2).Precedes
      (positionAt (blankLineFront ++ blankLineRest) 3)) ∧
    IsBoundary blankLineRest 4 ∧
    positionAt (blankLineFront ++ blankLineRest) (byteSize blankLineFront + 4) =
      (positionAt (blankLineFront ++ blankLineRest) (byteSize blankLineFront)).moved
        (positionAt blankLineRest 4) ∧
    positionAt (blankLineFront ++ blankLineRest) 2 = ⟨2, 1, 2⟩ ∧
    positionAt (blankLineFront ++ blankLineRest) 3 = ⟨3, 2, 1⟩ ∧
    positionAt (blankLineFront ++ blankLineRest) (byteSize blankLineFront + 4) = ⟨7, 3, 3⟩ := by
  have h₁ : IsBoundary (blankLineFront ++ blankLineRest) 2 :=
    ⟨['é'], '\n' :: blankLineRest, rfl, rfl⟩
  have h₂ : IsBoundary (blankLineFront ++ blankLineRest) 3 :=
    ⟨blankLineFront, blankLineRest, rfl, rfl⟩
  have h : IsBoundary blankLineRest 4 := ⟨blankLineRest, [], rfl, rfl⟩
  exact ⟨h₁, h₂, positionAt_precedes_and_moved.1 _ 2 3 h₁ h₂, h,
    positionAt_precedes_and_moved.2 _ _ 4 h, by decide, by decide, by decide⟩

end TagTemplate
