import TagTemplate.Proofs.Expression.Leaf
import TagTemplate.Proofs.Expression.Portable

/-!
# Groups

A group stands for the expression between its parentheses. That expression is found in a text of its
own, so it is read between parentheses as it is read alone (`portable_expressionAt`), a sum with all
its operands; filters behind the group are added to its own.

Both texts are taken apart here: the expression is a found text between two gaps, and a chain of
filters is a list of found filters with a gap behind it (`FilterCall.readChain`). Together they are
the group as an operand (`reads_operand_of_found`), and the operand is the whole expression.

> `Expr.read_grouped`: in any number of parentheses and with filters behind them, an expression is
> read as itself with these filters behind its own, up to places.
-/

namespace TagTemplate

open Reader Grammar
open Lexeme (Gap)

/-- Reads what may stand behind an operand: filters, or nothing but a gap. -/
def FilterCall.readChain (text : String) : Except ReadError (List (FilterCall Expr)) :=
  Reader.readAll (fun inner => do
    let _ ← gap
    let filters ← optional (filterChain inner)
    let _ ← gap
    endOfInput
    pure (filters.getD [])) text

/-- The text in that many pairs of parentheses. -/
def grouped : Nat → String → String
  | 0, text => text
  | depth + 1, text => "(" ++ grouped depth text ++ ")"

/-! ## What was read -/

/-- The text of an expression is a found text between two gaps. -/
theorem Expr.exists_found_of_read {text : String} {e : Expr} (h : Expr.read text = .ok e) :
    ∃ m front first back, Found (expressionAt m) first e ∧ Gap front ∧ Gap back ∧
      text.toList = front ++ (first ++ back) := by
  obtain ⟨d, hread⟩ := readAll_eq_ok_iff.mp h
  obtain ⟨front, c₁, c₂, back, hfront, hmoves₁, hexpression, hback, hmoves₂, hnil⟩ :=
    output_eq_some hread
  rw [← expressionAt_succ] at hexpression
  obtain ⟨first, blanks, c₃, hfound, hfirst, hblanks, hmoves₃⟩ :=
    exists_found hexpression (takes_expressionAt _)
  refine ⟨_, front, first, blanks ++ back, hfound, hfront, hblanks.append hback, ?_⟩
  have hall := (hmoves₁.trans (hfirst.trans (hmoves₃.trans hmoves₂))).rest
  rwa [hnil, List.append_nil] at hall

/-- The text of a chain is found filters, each with a gap in front, and a gap behind them. -/
theorem FilterCall.exists_items_of_readChain {text : String} {fs : List (FilterCall Expr)}
    (h : FilterCall.readChain text = .ok fs) :
    ∃ m items back, AllFound Gap (filter (expressionAt m)) items ∧ Gap back ∧
      text.toList = items.flatMap Item.source ++ back ∧ fs = items.map Item.value := by
  obtain ⟨d, hread⟩ := readAll_eq_ok_iff.mp h
  obtain ⟨front, c₁, hfront, hmoves₁, hread⟩ := gap_bind_eq_some hread
  obtain ⟨found, c₂, hfound, hread⟩ := bind_eq_some hread
  obtain ⟨back, c₃, hback, hmoves₃, hread⟩ := gap_bind_eq_some hread
  obtain ⟨_, _, hend, hread⟩ := bind_eq_some hread
  cases hread
  obtain ⟨rfl, hnil⟩ := endOfInput_eq_some hend
  rcases optional_eq_some hfound with ⟨chain, rfl, hchain⟩ | ⟨rfl, rfl⟩
  · obtain ⟨c₄, blanks, -, hrun, hblanks, hmoves₄⟩ := filterChain_eq_some hchain
    obtain ⟨items, between, c₅, hvalues, hitems, hmoves₅, hbetween, hmoves₆⟩ :=
      hrun.exists_items (takes_filter (takes_expressionAt _)) Gap.append hfront hmoves₁
    refine ⟨_, items, between ++ (blanks ++ back), hitems, hbetween.append (hblanks.append hback),
      ?_, hvalues⟩
    have hall := (hmoves₅.trans (hmoves₆.trans (hmoves₄.trans hmoves₃))).rest
    rwa [hnil, List.append_nil] at hall
  · refine ⟨0, [], front ++ back, fun _ hx => absurd hx List.not_mem_nil, hfront.append hback, ?_,
      rfl⟩
    have hall := (hmoves₁.trans hmoves₃).rest
    rwa [hnil, List.append_nil] at hall

/-! ## Groups with filters -/

theorem Expr.placeless_withFilters_nil (e : Expr) :
    e.placeless.withFilters [] .none = e.placeless := by
  obtain ⟨token, children, kind, filters, span⟩ := e
  rw [placeless_node, withFilters, List.append_nil]

/-- What was found in a text is read in parentheses, with the filters behind them as its last ones. -/
theorem reads_output_of_group {m m' k : Nat} {front first back final : List Char} {e : Expr}
    {items : List (Item (FilterCall Expr))} (hfound : Found (expressionAt m) first e)
    (hitems : AllFound Gap (filter (expressionAt m')) items) (hfront : Gap front)
    (hback : Gap back) (hfinal : Gap final) (hfirst : first.length < k)
    (hmore : (items.flatMap Item.source).length < k) :
    Reads (output (expressionAt k))
      (('(' :: (front ++ (first ++ (back ++ [')'])))) ++ (items.flatMap Item.source ++ final))
      fun e' _ => e'.placeless = e.placeless.withFilters (items.map fun x => x.value.placeless)
        .none := by
  have hgroup : ∀ rest, Lexeme.Delimited rest → Reads (primary (expressionAt k))
      (('(' :: (front ++ (first ++ (back ++ [')'])))) ++ rest) fun y r =>
        y.placeless = e.placeless ∧ r = rest := by
    intro rest _
    have hreads := reads_group_of_found (portable_expressionAt (Nat.le_refl k)) hfound hfirst hfront
      hback rest
    simpa only [List.append_assoc, List.cons_append, List.nil_append] using hreads
  have hoperand := reads_operand_of_found (portable_expressionAt (Nat.le_refl k)) hgroup hitems
    (Nat.lt_succ_of_lt hmore) (Lexeme.follows_gap hfinal ['|'] _)
  have hplus : ∀ r, afterGap final ≠ '+' :: r :=
    (Lexeme.follows_gap hfinal ['+'] []).ne_cons (List.mem_singleton_self _)
  have hexpression := reads_expression_of_operand hoperand hplus
  rw [afterGap_of_gap hfinal] at hexpression
  have houtput := reads_output_of_expression Lexeme.gap_nil rfl hexpression
  rwa [List.nil_append] at houtput

/-- A group with filters behind it is the expression with these filters behind its own. -/
theorem Expr.read_group {text filters : String} {e : Expr} {fs : List (FilterCall Expr)}
    (h : Expr.read text = .ok e) (hfilters : FilterCall.readChain filters = .ok fs) :
    ∃ e', Expr.read ("(" ++ text ++ ")" ++ filters) = .ok e' ∧
      e'.placeless = e.placeless.withFilters (fs.map FilterCall.placeless) .none := by
  obtain ⟨m, front, first, back, hfound, hfront, hback, htext⟩ := Expr.exists_found_of_read h
  obtain ⟨m', items, final, hitems, hfinal, hchain, rfl⟩ :=
    FilterCall.exists_items_of_readChain hfilters
  have hsource : ("(" ++ text ++ ")" ++ filters).toList =
      ('(' :: (front ++ (first ++ (back ++ [')'])))) ++ (items.flatMap Item.source ++ final) := by
    have hopen : "(".toList = ['('] := rfl
    have hclose : ")".toList = [')'] := rfl
    simp only [String.toList_append, htext, hchain, hopen, hclose, List.append_assoc,
      List.cons_append, List.nil_append]
  have houtput : Reads (output (expressionAt (("(" ++ text ++ ")" ++ filters).toList.length + 1)))
      ("(" ++ text ++ ")" ++ filters).toList fun e' _ =>
        e'.placeless = e.placeless.withFilters (items.map fun x => x.value.placeless) .none := by
    rw [hsource]
    refine reads_output_of_group hfound hitems hfront hback hfinal ?_ ?_ <;>
      simp only [List.length_cons, List.length_append] <;> omega
  obtain ⟨e', _, hread, hplaceless⟩ := houtput.readAll
  refine ⟨e', hread, ?_⟩
  rw [hplaceless, List.map_map]
  rfl

/-- Groups are transparent: any number of parentheses changes nothing but places, and filters behind
them are applied to the whole expression, after its own. -/
theorem Expr.read_grouped {text filters : String} {e : Expr} {fs : List (FilterCall Expr)}
    (h : Expr.read text = .ok e) (hfilters : FilterCall.readChain filters = .ok fs) (depth : Nat) :
    ∃ e', Expr.read (grouped (depth + 1) text ++ filters) = .ok e' ∧
      e'.placeless = e.placeless.withFilters (fs.map FilterCall.placeless) .none := by
  -- the inner pairs have nothing behind them
  have hinner : ∃ e', Expr.read (grouped depth text) = .ok e' ∧ e'.placeless = e.placeless := by
    induction depth with
    | zero => exact ⟨e, h, rfl⟩
    | succ depth ih =>
      obtain ⟨e₁, hread, he₁⟩ := ih
      have hnone : FilterCall.readChain "" = .ok [] := rfl
      obtain ⟨e₂, hread₂, he₂⟩ := Expr.read_group hread hnone
      refine ⟨e₂, ?_, ?_⟩
      · rwa [String.append_empty] at hread₂
      · rw [he₂, he₁, List.map_nil, Expr.placeless_withFilters_nil]
  obtain ⟨e₁, hread, he₁⟩ := hinner
  obtain ⟨e₂, hread₂, he₂⟩ := Expr.read_group hread hfilters
  exact ⟨e₂, hread₂, by rw [he₂, he₁]⟩

/-- A sum with a filter on its last operand, in two pairs of parentheses with two filters behind. -/
theorem Expr.read_groupedSum :
    ∃ e fs, Expr.read " a + b | f " = .ok e ∧ FilterCall.readChain " |g(1)|h" = .ok fs ∧
      e.kind = .sum ∧ fs.length = 2 ∧
        ∃ e', Expr.read (grouped 2 " a + b | f " ++ " |g(1)|h") = .ok e' ∧
          e'.placeless = e.placeless.withFilters (fs.map FilterCall.placeless) .none := by
  obtain ⟨e, fs, hread, hfilters, hkind, hlength⟩ : ∃ e fs, Expr.read " a + b | f " = .ok e ∧
      FilterCall.readChain " |g(1)|h" = .ok fs ∧ e.kind = .sum ∧ fs.length = 2 :=
    ⟨_, _, rfl, rfl, rfl, rfl⟩
  exact ⟨e, fs, hread, hfilters, hkind, hlength, Expr.read_grouped hread hfilters 1⟩

end TagTemplate
