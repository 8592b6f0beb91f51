import Mathlib.Data.List.TakeWhile
import TagTemplate.Proofs.Expression.Evaluable

/-!
# Whole numbers as they are written

A whole number is written as digits, any number of them, perhaps behind a minus. Such a text is one
lexeme, up to its last digit, and it always has a value: the integer that it spells, if that lies in
the range of 64 bits, or else a double.

> `WholeNumber.int?_chars`: the whole text is the lexeme.
> `WholeNumber.readNumber_of_inWord`, `WholeNumber.readNumber_of_not_inWord`: its value in the range
> and outside.
-/

namespace TagTemplate

namespace Number

/-- The integer lies in the range of 64 bits. -/
def InWord (z : Int) : Prop :=
  Int64.minValue.toInt ≤ z ∧ z ≤ Int64.maxValue.toInt

instance (z : Int) : Decidable (InWord z) :=
  inferInstanceAs (Decidable (_ ∧ _))

variable {z : Int}

theorem inWord_toInt (n : Int64) : InWord n.toInt :=
  ⟨n.minValue_le_toInt, n.toInt_le⟩

theorem fitsWord_iff : fitsWord z = true ↔ InWord z := by
  have hhigh : z < Int.pow 2 63 ↔ z ≤ Int64.maxValue.toInt :=
    @Int.lt_add_one_iff z Int64.maxValue.toInt
  rw [fitsWord, Bool.and_eq_true, decide_eq_true_eq, decide_eq_true_eq, hhigh]
  rfl

theorem toInt_ofInt (h : InWord z) : (Int64.ofInt z).toInt = z :=
  Int64.toInt_ofInt_of_le h.1 (Int.lt_add_one_iff.mpr h.2)

end Number

/-- A whole number as it is written: one or more digits, perhaps behind a minus. -/
structure WholeNumber where
  negative : Bool
  digits : List Char
  nonempty : digits ≠ []
  isDigit : ∀ c ∈ digits, c.isDigit = true

namespace WholeNumber

open Number (InWord fitsWord readInt? splitSign)

variable (w : WholeNumber)

/-- The characters of the number. -/
def chars : List Char :=
  if w.negative then '-' :: w.digits else w.digits

/-- The text of the number. -/
def text : String :=
  String.ofList w.chars

/-- The integer that the text spells. -/
def value : Int :=
  if w.negative then -(Nat.ofDigitChars 10 w.digits 0 : Int) else Nat.ofDigitChars 10 w.digits 0

theorem splitSign_chars : splitSign w.chars = (w.negative, w.digits) := by
  obtain ⟨negative, digits, nonempty, isDigit⟩ := w
  cases negative with
  | true => rfl
  | false =>
    obtain ⟨c, cs, rfl⟩ := List.exists_cons_of_ne_nil nonempty
    exact Number.splitSign_of_isDigit (isDigit c (List.mem_cons_self ..)) cs

theorem readDigits?_digits : Number.readDigits? w.digits = some (Nat.ofDigitChars 10 w.digits 0) := by
  have hall : w.digits.all Char.isDigit = true := List.all_eq_true.mpr w.isDigit
  unfold Number.readDigits?
  split
  next hnil => exact absurd hnil w.nonempty
  next => exact if_pos hall

/-- As an integer the text is read exactly or not at all. -/
theorem readInt?_chars :
    readInt? w.chars = if InWord w.value then some (Int64.ofInt w.value) else none := by
  have hread : readInt? w.chars =
      if fitsWord w.value then some (Int64.ofInt w.value) else none := by
    unfold readInt?
    rw [w.splitSign_chars]
    dsimp only
    rw [w.readDigits?_digits]
    rfl
  rw [hread]
  exact if_congr Number.fitsWord_iff rfl rfl

/-! ## The lexeme -/

theorem digits?_digits : Lexeme.digits? w.digits = some (w.digits, []) := by
  obtain ⟨negative, digits, nonempty, isDigit⟩ := w
  have htake : digits.takeWhile Char.isDigit = digits := List.takeWhile_eq_self_iff.mpr isDigit
  have hdrop : digits.dropWhile Char.isDigit = [] := List.dropWhile_eq_nil_iff.mpr isDigit
  show Lexeme.digits? digits = some (digits, [])
  unfold Lexeme.digits?
  rw [htake, hdrop]
  cases digits with
  | nil => exact absurd rfl nonempty
  | cons c cs => rfl

/-- The whole text is one lexeme. -/
theorem int?_chars : Lexeme.int? w.chars = some (w.chars, []) := by
  have hsigned : Lexeme.signedDigits? w.chars = some (w.chars, []) := by
    have hdigits := w.digits?_digits
    obtain ⟨negative, digits, nonempty, isDigit⟩ := w
    cases negative with
    | true =>
      show (Lexeme.digits? digits).map _ = _
      rw [hdigits]
      rfl
    | false =>
      obtain ⟨c, cs, rfl⟩ := List.exists_cons_of_ne_nil nonempty
      have hminus : c ≠ '-' := by
        rintro rfl
        exact absurd (isDigit '-' (List.mem_cons_self ..)) (by decide)
      exact (Lexeme.signedDigits?_of_ne hminus cs).trans hdigits
  exact Lexeme.wholeWord_eq_some_iff.mpr ⟨hsigned, rfl⟩

/-! ## The value -/

variable {w}

/-- In the range of 64 bits the value is exact. -/
theorem readNumber_of_inWord (h : InWord w.value) :
    Value.readNumber w.text = .ok (.int (Int64.ofInt w.value)) := by
  unfold Value.readNumber text
  rw [String.toList_ofList, readInt?_chars, if_pos h]

/-- Outside it is a double. -/
theorem readNumber_of_not_inWord (h : ¬ InWord w.value) :
    ∃ x, Value.readNumber w.text = .ok (.float x) := by
  have hfloat : ∃ x, Number.readFloat? w.chars = some x := by
    obtain ⟨hplus, hminus⟩ := Number.readFloat?_eq_some w.nonempty w.isDigit (Or.inl rfl)
    rw [List.append_nil] at hplus hminus
    unfold chars
    split
    next => exact hminus
    next => exact hplus
  obtain ⟨x, hx⟩ := hfloat
  refine ⟨x, ?_⟩
  unfold Value.readNumber Value.readFloat text
  rw [String.toList_ofList, readInt?_chars, if_neg h, hx]

end WholeNumber

end TagTemplate
