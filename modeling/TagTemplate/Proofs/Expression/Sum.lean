import Mathlib.Algebra.Ring.Int.Defs
import TagTemplate.Proofs.Expression.Found
import TagTemplate.Proofs.Expression.Leaf
import TagTemplate.Proofs.Expression.WholeNumber

/-!
# Sums of whole numbers

Whole numbers with pluses between them are added from the left. As long as each number and each sum
so far lies in the range of 64 bits (`StaysInWord`), the sum so far is an integer, and exact. From
the first one that does not, it is a double, and remains one even if the total is in the range
again.

> `Expr.eval_wholeSum`: the text of such a sum is read, and its value is the exact integer or a
> double, according to `StaysInWord`.

`IsSum zs v` says what has become of the numbers `zs`. A further number preserves it
(`IsSum.add`), so it holds of the whole sum by induction on the operands (`exists_evalSumFrom`).
-/

namespace TagTemplate

open Reader Grammar
open Number (InWord)
open Lexeme (Gap Follows)

/-! ## Adding from the left -/

/-- Every number, and every sum of some of them from the left, lies in the range of 64 bits. -/
def StaysInWord (zs : List Int) : Prop :=
  (∀ z ∈ zs, InWord z) ∧ ∀ front, front <+: zs → InWord front.sum

variable {zs : List Int} {z : Int} {v w : Value}

theorem staysInWord_singleton : StaysInWord [z] ↔ InWord z := by
  constructor
  · exact fun h => h.1 z (List.mem_singleton_self z)
  · intro h
    refine ⟨List.forall_mem_singleton.mpr h, fun front hfront => ?_⟩
    rcases List.prefix_cons_iff.mp hfront with rfl | ⟨t, rfl, ht⟩
    · exact Number.inWord_toInt 0
    · rw [List.prefix_nil.mp ht, List.sum_singleton]
      exact h

/-- One more number has to be in the range, and so has the sum with it. -/
theorem staysInWord_concat :
    StaysInWord (zs ++ [z]) ↔ StaysInWord zs ∧ InWord z ∧ InWord (zs.sum + z) := by
  have hsum : (zs ++ [z]).sum = zs.sum + z := by
    rw [List.sum_append, List.sum_singleton]
  constructor
  · rintro ⟨hall, hfront⟩
    obtain ⟨hzs, hz⟩ := List.forall_mem_append.mp hall
    refine ⟨⟨hzs, fun front h => hfront front (h.trans (List.prefix_append ..))⟩, ?_, ?_⟩
    · exact hz z (List.mem_singleton_self z)
    · exact hsum ▸ hfront _ (List.prefix_refl _)
  · rintro ⟨⟨hall, hfront⟩, hz, htotal⟩
    refine ⟨List.forall_mem_append.mpr ⟨hall, List.forall_mem_singleton.mpr hz⟩, ?_⟩
    intro front h
    rcases List.prefix_concat_iff.mp h with rfl | h
    · rwa [hsum]
    · exact hfront front h

/-- The value that the numbers have come to: their sum as an integer, or a double. -/
inductive IsSum (zs : List Int) : Value → Prop
  | exact {n : Int64} (h : StaysInWord zs) (hn : n.toInt = zs.sum) : IsSum zs (.int n)
  | double {x : Float} (h : ¬ StaysInWord zs) : IsSum zs (.float x)

/-- A further number is added to an integer if the sum stays in the range. What is a double remains
one. -/
theorem IsSum.add (hv : IsSum zs v) (hw : IsSum [z] w) : IsSum (zs ++ [z]) (v.add w) := by
  cases hv with
  | double h => cases hw <;> exact .double fun hstays => h (staysInWord_concat.mp hstays).1
  | exact hzs hn =>
    cases hw with
    | double h =>
      exact .double fun hstays =>
        h (staysInWord_singleton.mpr (staysInWord_concat.mp hstays).2.1)
    | exact hz hm =>
      rw [List.sum_singleton] at hm
      unfold Value.add
      dsimp only
      rw [hn, hm]
      split
      next hfits =>
        have htotal := Number.fitsWord_iff.mp hfits
        refine .exact (staysInWord_concat.mpr ⟨hzs, staysInWord_singleton.mp hz, htotal⟩) ?_
        rw [Number.toInt_ofInt htotal, List.sum_append, List.sum_singleton]
      next hfits =>
        refine .double fun hstays => hfits ?_
        exact Number.fitsWord_iff.mpr (staysInWord_concat.mp hstays).2.2

/-- The value is an integer exactly if the numbers stay in the range, and then it is their sum. -/
theorem IsSum.eq_int_iff (h : IsSum zs v) (n : Int64) :
    v = .int n ↔ StaysInWord zs ∧ n.toInt = zs.sum := by
  cases h with
  | exact hstays hn =>
    constructor
    · rintro ⟨⟩
      exact ⟨hstays, hn⟩
    · rintro ⟨-, hm⟩
      rw [Int64.toInt_inj.mp (hn.trans hm.symm)]
  | double h =>
    constructor
    · intro heq
      cases heq
    · exact fun hn => absurd hn.1 h

theorem IsSum.int_or_float (h : IsSum zs v) : (∃ n, v = .int n) ∨ ∃ x, v = .float x := by
  cases h with
  | exact _ _ => exact Or.inl ⟨_, rfl⟩
  | double _ => exact Or.inr ⟨_, rfl⟩

/-- The value of a single number. -/
theorem WholeNumber.exists_isSum (w : WholeNumber) :
    ∃ v, Value.readNumber w.text = .ok v ∧ IsSum [w.value] v := by
  by_cases h : InWord w.value
  · refine ⟨_, readNumber_of_inWord h, .exact (staysInWord_singleton.mpr h) ?_⟩
    rw [Number.toInt_ofInt h, List.sum_singleton]
  · obtain ⟨x, hx⟩ := readNumber_of_not_inWord h
    exact ⟨_, hx, .double fun hstays => h (staysInWord_singleton.mp hstays)⟩

namespace Expr

variable {scope : Scope}

/-- The run of the addition; the induction is on the numbers that are still to be added. -/
theorem exists_evalSumFrom :
    ∀ {es : List Expr} (ns : List WholeNumber) {zs : List Int} {v : Value}, IsSum zs v →
      es.map (·.eval scope) = ns.map (fun w => Value.readNumber w.text) →
        ∃ u, evalSumFrom scope v es = .ok u ∧ IsSum (zs ++ ns.map WholeNumber.value) u
  | [], [], zs, v, hv, _ => ⟨v, by rw [evalSumFrom], by rwa [List.map_nil, List.append_nil]⟩
  | e :: es, n :: ns, zs, v, hv, heval => by
    rw [List.map_cons, List.map_cons, List.cons.injEq] at heval
    obtain ⟨w, hread, hw⟩ := n.exists_isSum
    obtain ⟨u, hu, hsum⟩ := exists_evalSumFrom ns (hv.add hw) heval.2
    refine ⟨u, ?_, ?_⟩
    · rw [evalSumFrom, heval.1, hread]
      exact hu
    · rw [List.map_cons]
      rwa [List.append_assoc] at hsum

end Expr

/-! ## Sums as they are written -/

/-- A number behind its plus, with gaps around the plus. -/
structure Addend where
  before : List Char
  after : List Char
  number : WholeNumber
  gap_before : Gap before
  gap_after : Gap after

/-- A sum of whole numbers as it is written. -/
structure WholeSum where
  first : WholeNumber
  rest : List Addend

/-- The text from behind the gap in front of the plus. -/
def Addend.body (a : Addend) : List Char :=
  '+' :: (a.after ++ a.number.chars)

/-- The text of the plus and the number. -/
def Addend.chars (a : Addend) : List Char :=
  a.before ++ a.body

/-- The text of the sum. -/
def WholeSum.text (s : WholeSum) : String :=
  String.ofList (s.first.chars ++ s.rest.flatMap Addend.chars)

/-- The numbers that are added. -/
def WholeSum.values (s : WholeSum) : List Int :=
  s.first.value :: s.rest.map (·.number.value)

variable {scope : Scope} {inner : Reader Expr}

/-- A whole number is an operand, and its value is what the number is read as. -/
theorem reads_operand_wholeNumber (w : WholeNumber) {rest : List Char}
    (hrest : Follows ['|'] w.chars rest) :
    Reads (operand inner) (w.chars ++ rest) fun e r =>
      e.eval scope = Value.readNumber w.text ∧ afterGap r = afterGap rest := by
  have hbar := hrest.ne_cons (List.mem_singleton_self '|')
  refine (reads_operand_of_leaf (reads_primary_int w.int?_chars hrest.delimited) hbar).mono
    fun e r he => ?_
  obtain ⟨⟨place, span, rfl⟩, rfl⟩ := he
  exact ⟨Expr.eval_unfiltered .., afterGap_afterGap rest⟩

theorem WholeNumber.afterGap_chars (w : WholeNumber) (rest : List Char) :
    afterGap (w.chars ++ rest) = w.chars ++ rest := by
  obtain ⟨c, r, hchars, hc⟩ :=
    Lexeme.head_of_signedDigits? (Lexeme.wholeWord_eq_some_iff.mp w.int?_chars).1
  rw [hchars]
  exact afterGap_cons (Lexeme.isGap_of_number hc) _

/-- Behind anything a plus and a number are no filter. -/
theorem Addend.follows (a : Addend) (text rest : List Char) :
    Follows ['|'] text (a.chars ++ rest) := by
  rw [chars, List.append_assoc]
  exact Lexeme.follows_gap_cons a.gap_before (by decide) rfl (by decide) (by decide) text _

/-- The numbers behind the first one are read one by one. -/
theorem series_addend (addends : List Addend) :
    Series (do let _ ← symbol '+'; let _ ← gap; operand inner) (·.eval scope)
      (fun a => Value.readNumber a.number.text) Addend.chars Addend.body afterGap
      (fun a => Follows ['|'] a.number.chars) addends where
  begins := by
    intro a _ rest
    rw [Addend.chars, List.append_assoc, afterGap_append a.gap_before]
    exact afterGap_cons rfl _
  nonempty := fun a _ => List.append_ne_nil_of_right_ne_nil _ (List.cons_ne_nil _ _)
  follows := (List.pairwise_of_forall fun a a' => a'.follows a.number.chars).isChain
  reads := by
    intro a _ rest hrest
    rw [Addend.body, List.cons_append, List.append_assoc]
    refine Reads.symbol_bind (Reads.gap_bind fun _ => ?_)
    rw [afterGap_append a.gap_after, a.number.afterGap_chars]
    exact reads_operand_wholeNumber a.number hrest

/-- What was read of operands with pluses between them is evaluated by adding their values. -/
theorem Expr.exists_evalSum {x : Except TemplateError Value}
    {xs : List (Except TemplateError Value)} {cs r : List Char} {e : Expr}
    (h : Summed (·.eval scope) cs r x xs e) :
    ∃ first more, first.eval scope = x ∧ more.map (·.eval scope) = xs ∧
      e.eval scope = evalSum scope (first :: more) := by
  cases h with
  | single =>
    refine ⟨e, [], rfl, rfl, ?_⟩
    rw [evalSum]
    cases e.eval scope with
    | error _ => rfl
    | ok v =>
      show _ = evalSumFrom scope v []
      rw [evalSumFrom]
  | sum place htaken => exact ⟨_, _, rfl, rfl, eval_unfiltered ..⟩

namespace WholeSum

variable (s : WholeSum)

theorem exists_eval {cs r : List Char} {e : Expr}
    (h : Summed (·.eval scope) cs r (Value.readNumber s.first.text)
      (s.rest.map fun a => Value.readNumber a.number.text) e) :
    ∃ v, e.eval scope = .ok v ∧ IsSum s.values v := by
  obtain ⟨first, more, hfirst, hmore, heval⟩ := Expr.exists_evalSum h
  obtain ⟨v, hv, hisSum⟩ := s.first.exists_isSum
  obtain ⟨u, hu, htotal⟩ := Expr.exists_evalSumFrom (s.rest.map (·.number)) hisSum
    (by rw [hmore, List.map_map]; rfl)
  rw [List.map_map] at htotal
  refine ⟨u, ?_, htotal⟩
  rw [heval, Expr.evalSum, hfirst, hv]
  exact hu

/-- The whole text is read as an expression. -/
theorem reads_output (n : Nat) :
    Reads (output (expressionAt n)) s.text.toList fun e _ =>
      ∃ v, e.eval scope = .ok v ∧ IsSum s.values v := by
  have hends : ∀ text, Follows ['|'] text [] := Lexeme.follows_gap Lexeme.gap_nil _
  have hfirst : Reads (operand (expressionAt n))
      (s.first.chars ++ (s.rest.flatMap Addend.chars ++ [])) fun e r =>
        e.eval scope = Value.readNumber s.first.text ∧
          afterGap r = afterGap (s.rest.flatMap Addend.chars ++ []) :=
    reads_operand_wholeNumber s.first
      (forall_flatMap_append (fun a _ rest => a.follows _ rest) (hends _))
  have hexpression := reads_expression_of_series (takes_expressionAt n) hfirst
    (series_addend s.rest) (fun a _ => hends _) fun r hr => by cases hr
  rw [List.append_nil] at hexpression
  rw [text, String.toList_ofList]
  show Reads _ ([] ++ (s.first.chars ++ s.rest.flatMap Addend.chars)) _
  exact reads_output_of_expression Lexeme.gap_nil (s.first.afterGap_chars _)
    (hexpression.mono fun e r he => ⟨s.exists_eval he.1, he.2⟩)

end WholeSum

/-- A sum of whole numbers is always read and has a value. The value is an integer exactly if all
numbers and all sums from the left are in the range of 64 bits, and then it is exact; otherwise it is
a double. -/
theorem Expr.eval_wholeSum (scope : Scope) (s : WholeSum) :
    ∃ e v, read s.text = .ok e ∧ e.eval scope = .ok v ∧
      (∀ n : Int64, v = .int n ↔ StaysInWord s.values ∧ n.toInt = s.values.sum) ∧
      ((∃ n, v = .int n) ∨ ∃ x, v = .float x) := by
  obtain ⟨e, _, hread, v, hv, hsum⟩ := (s.reads_output _).readAll
  exact ⟨e, v, hread, hv, hsum.eq_int_iff, hsum.int_or_float⟩

/-- The total is in the range again, but the sum before it is not. -/
theorem Expr.eval_wholeSum_backInRange :
    ∃ e x, read "9223372036854775807 + 1+-1" = .ok e ∧
      e.eval ⟨.standard, .null, .html⟩ = .ok (.float x) := by
  let one : Bool → WholeNumber := fun negative =>
    ⟨negative, ['1'], by decide, List.all_eq_true.mp rfl⟩
  let s : WholeSum :=
    { first := ⟨false, "9223372036854775807".toList, by decide, List.all_eq_true.mp rfl⟩
      rest :=
        [⟨[' '], [' '], one false, Lexeme.isGap_of_mem_blank, Lexeme.isGap_of_mem_blank⟩,
          ⟨[], [], one true, Lexeme.gap_nil, Lexeme.gap_nil⟩] }
  obtain ⟨e, v, hread, hv, hint, ⟨n, rfl⟩ | ⟨x, rfl⟩⟩ := eval_wholeSum ⟨.standard, .null, .html⟩ s
  · have hstays : StaysInWord s.values := ((hint n).mp rfl).1
    exact absurd (hstays.2 [9223372036854775807, 1] ⟨[-1], rfl⟩) (by decide)
  · exact ⟨e, x, hread, hv⟩

end TagTemplate
