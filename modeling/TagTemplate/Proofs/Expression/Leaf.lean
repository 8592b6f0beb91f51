import TagTemplate.Proofs.Expression.Evaluation
import TagTemplate.Proofs.Expression.RoundTrip

/-!
# Arguments without commas

The comma behind an argument may be missing. Then the gap alone has to tell where an argument ends,
and it does not if the next character makes a filter, a sum or a value under a key of what stands
before it. A lexeme in front of anything else is an argument of its own, a variable as well as a
string, and so is a string under a key.

> `Argument.readList_blankSeparated`: arguments of this kind with a blank between any two of them are
> read as these arguments.
-/

namespace TagTemplate

/-- An expression that is a single lexeme, without a place. -/
def Expr.leaf (kind : Expr.Kind) (text : String) : Expr :=
  .node ⟨text, .none⟩ [] kind [] .none

theorem Expr.evaluable_leaf {kind : Expr.Kind} {text : String} (h : (leaf kind text).IsSound) :
    (leaf kind text).Evaluable :=
  Expr.evaluable_plain h fun _ he => absurd he List.not_mem_nil

theorem Expr.eval_leaf (scope : Scope) (kind : Expr.Kind) (text : String) :
    (leaf kind text).eval scope = Expr.bareValue scope ⟨text, .none⟩ [] .none kind := by
  rw [leaf, Expr.eval_unfiltered]

namespace Grammar

open Reader

/-- The text ends what stands before it, and does not go on with a filter, an operand or a value. -/
structure LeafEnds (cs : List Char) : Prop where
  delimited : Lexeme.Delimited cs
  separate : ∀ c ∈ (afterGap cs).head?, c ∉ ['|', '+', '=']

variable {cs text rest : List Char} {inner : Reader Expr} {kind : Expr.Kind}

theorem LeafEnds.ne_cons (h : LeafEnds rest) {c : Char} (hc : c ∈ ['|', '+', '=']) :
    ∀ r, afterGap rest ≠ c :: r := by
  intro r heq
  exact h.separate c (by rw [heq]; rfl) hc

theorem leafEnds_of_isGap (h : ∀ c ∈ rest, Lexeme.isGap c = true) : LeafEnds rest where
  delimited := Lexeme.delimited_of_isGap h
  separate := by
    rw [afterGap_of_gap h]
    exact fun _ hc => by cases hc

/-! ## Expressions -/

theorem placeless_of_isLeaf {e : Expr} {r : List Char} (h : IsLeaf kind text rest e r) :
    e.placeless = .leaf kind (String.ofList text) ∧ r = rest := by
  obtain ⟨⟨span, rfl⟩, rfl⟩ := h
  exact ⟨Expr.placeless_node .., rfl⟩

/-- Without a bar behind it a lexeme is an operand. -/
theorem reads_operand_of_leaf (h : Reads (primary inner) cs (IsLeaf kind text rest))
    (hbar : ∀ r, afterGap rest ≠ '|' :: r) :
    Reads (operand inner) cs fun e r =>
      (∃ place span, e = .node ⟨String.ofList text, place⟩ [] kind [] span) ∧ r = afterGap rest := by
  refine reads_operand_of_parts h fun e r he => ?_
  obtain ⟨⟨place, rfl⟩, rfl⟩ := he
  exact Reads.optional_none (fails_filterChain hbar) fun span => ⟨⟨place, span, rfl⟩, rfl⟩

/-- Without a plus behind it either, it is an expression. -/
theorem reads_expression_of_leaf (h : Reads (primary inner) cs (IsLeaf kind text rest))
    (hrest : LeafEnds rest) :
    Reads (expression inner) cs fun e r =>
      e.placeless = .leaf kind (String.ofList text) ∧ afterGap r = afterGap rest := by
  refine reads_expression_of_operand
    ((reads_operand_of_leaf h (hrest.ne_cons (by decide))).mono fun e r he => ?_)
    (hrest.ne_cons (by decide))
  obtain ⟨⟨place, span, rfl⟩, rfl⟩ := he
  exact ⟨Expr.placeless_node .., afterGap_afterGap rest⟩

/-! ## Keys and values -/

/-- A name is read as a key, whatever ends it. -/
theorem reads_key_of_dashedName {name : List Char}
    (hname : Lexeme.dashedName? name = some (name, [])) (hrest : Lexeme.Delimited rest) :
    Reads key (name ++ rest) fun token r => token.text = String.ofList name ∧ r = rest := by
  have hplain := (Lexeme.stopsBefore_dashedName? hrest).eq_some hname
  exact Reads.named (reads_nameToken
    (reads_stringOr_name (Lexeme.head_of_dashedName? hname) hplain))

end Grammar

open Reader Grammar

variable {rest : List Char}

theorem afterGap_quotedIn {q : Char} (hq : q = '"' ∨ q = '\'') (text rest : List Char) :
    afterGap (Lexeme.quotedIn q text ++ rest) = Lexeme.quotedIn q text ++ rest := by
  rcases hq with rfl | rfl <;> rfl

/-- A string is read as an expression, with gaps around it. -/
theorem Expr.read_literal {q : Char} (hq : q = '"' ∨ q = '\'') (text : String) :
    ∃ e, Expr.read (" " ++ (Lexeme.literal q text ++ " ")) = .ok e ∧
      e.placeless = .leaf .text text := by
  have hends : LeafEnds [' '] :=
    leafEnds_of_isGap Lexeme.isGap_of_mem_blank
  have houtput : ∀ inner, Reads (output inner) (" " ++ (Lexeme.literal q text ++ " ")).toList
      fun e _ => e.placeless = .leaf .text text := by
    intro inner
    rw [String.toList_append, String.toList_append, Lexeme.toList_literal]
    refine reads_output_of_expression Lexeme.isGap_of_mem_blank (afterGap_quotedIn hq ..) ?_
    refine (reads_expression_of_leaf (reads_primary_text hq text.toList) hends).mono
      fun e r he => ⟨?_, he.2⟩
    rw [he.1, String.ofList_toList]
  obtain ⟨e, -, hread, hleaf⟩ := (houtput _).readAll
  exact ⟨e, hread, hleaf⟩

/-! ## Arguments -/

namespace Argument

variable {inner : Reader Expr}

/-- The text stands for the argument, in front of the end and of anything that is no part of it. -/
structure IsReadFrom (a : Argument) (text : String) : Prop where
  begins : ∃ c r, text.toList = c :: r ∧ Lexeme.isGap c = false ∧ c ∉ [',', '|', '+', '=']
  reads : ∀ inner rest, LeafEnds rest → Reads (argument inner) (text.toList ++ rest) fun a' r =>
    a'.placeless = a.placeless ∧ afterGap r = afterGap rest
  named : ∀ key ∈ a.key, ¬ key.text.isEmpty = true

/-- What begins like a name begins an argument. -/
theorem begins_of_isNameStart {text : List Char}
    (h : ∃ c r, text = c :: r ∧ Lexeme.isNameStart c = true) :
    ∃ c r, text = c :: r ∧ Lexeme.isGap c = false ∧ c ∉ [',', '|', '+', '='] := by
  obtain ⟨c, r, rfl, hc⟩ := h
  refine ⟨c, r, rfl, Lexeme.isGap_of_isNameChar (Lexeme.isNameChar_of_isNameStart hc), ?_⟩
  intro hmem
  have hall : ∀ d ∈ [',', '|', '+', '='], Lexeme.isNameStart d = false := by
    simp [Lexeme.isNameStart]
  rw [hall c hmem] at hc
  cases hc

/-- A variable is an argument. A key is looked for first, and there is no equals sign behind it. -/
theorem isReadFrom_path {path : String}
    (hpath : Lexeme.path? path.toList = some (path.toList, []))
    (hfirst : ∀ w ∈ Lexeme.reservedWords, path.toList.takeWhile (· != '.') ≠ w.toList) :
    (Argument.mk none (.leaf .path path) .none).IsReadFrom path where
  begins := begins_of_isNameStart (Lexeme.head_of_path? hpath)
  reads := by
    intro inner rest hrest
    obtain ⟨c, r, htext, hc⟩ := Lexeme.head_of_path? hpath
    have hkey := reads_key_name htext hc (Lexeme.mem_path? hpath) hrest.delimited
      (hrest.ne_cons (by decide))
    have hprimary : Reads (primary inner) (path.toList ++ rest) (IsLeaf .path path.toList rest) :=
      reads_primary_path hpath hfirst hrest.delimited
    have hvalue := reads_expression_of_leaf hprimary hrest
    refine reads_argument_of_parts (Reads.right (NoKey.fails (Or.inr hkey))
      (hvalue.bind fun e r he => Reads.pure fun _ => ⟨?_, he.2⟩))
    rw [placeless, he.1, String.ofList_toList]
    rfl
  named := fun _ hkey => by cases hkey

/-- So is a string under a key. -/
theorem isReadFrom_string {name : String} {q : Char} (hq : q = '"' ∨ q = '\'')
    (hname : Lexeme.dashedName? name.toList = some (name.toList, [])) (text : String) :
    (Argument.mk (some ⟨name, .none⟩) (.leaf .text text) .none).IsReadFrom
      (name ++ "=" ++ Lexeme.literal q text) where
  begins := by
    obtain ⟨c, r, htext, hc⟩ := Lexeme.head_of_dashedName? hname
    rw [String.toList_append, String.toList_append, htext]
    exact begins_of_isNameStart ⟨c, _, rfl, hc⟩
  reads := by
    intro inner rest hrest
    have hsource : (name ++ "=" ++ Lexeme.literal q text).toList ++ rest =
        name.toList ++ '=' :: (Lexeme.quotedIn q text.toList ++ rest) := by
      simp only [String.toList_append, Lexeme.toList_literal, List.append_assoc]
      rfl
    have hprimary : Reads (primary inner) (Lexeme.quotedIn q text.toList ++ rest)
        (IsLeaf .text text.toList rest) :=
      reads_primary_text hq text.toList
    have hvalue := reads_expression_of_leaf hprimary hrest
    rw [hsource]
    have hkey := reads_key_of_dashedName hname
      (Lexeme.delimited_cons (c := '=') (by decide) (Lexeme.quotedIn q text.toList ++ rest))
    refine reads_argument_of_parts (Reads.left (hkey.bind fun token r htoken => ?_))
    obtain ⟨htoken, rfl⟩ := htoken
    refine Reads.gap_bind fun _ => Reads.symbol_bind (Reads.gap_bind fun _ => ?_)
    rw [afterGap_quotedIn hq]
    refine hvalue.bind fun e r he => Reads.pure fun _ => ⟨?_, he.2⟩
    rw [placeless, he.1, Option.map_some, Token.bare, htoken, String.ofList_toList,
      String.ofList_toList]
    rfl
  named := by
    intro key hkey hempty
    cases hkey
    have hnil : name = "" := String.isEmpty_iff.mp hempty
    rw [hnil] at hname
    cases hname

/-! ## Argument lists -/

/-- A text that is read as arguments with keys that are not empty is an argument list. -/
theorem readList_of_reads {text : String} {found : List Argument}
    (h : ∀ n, text.toList.length ≤ n → Reads (signature (expressionAt n)) text.toList fun args _ =>
      args.map Argument.placeless = found.map Argument.placeless)
    (hnamed : ∀ a ∈ found, ∀ key ∈ a.key, ¬ key.text.isEmpty = true) :
    ∃ args, readList text = .ok args ∧
      args.map Argument.placeless = found.map Argument.placeless := by
  obtain ⟨args, _, hread, hargs⟩ := (h _ (Nat.le_succ _)).readAll
  refine ⟨args, readList_eq_ok_iff.mpr ⟨hread, ?_⟩, hargs⟩
  rw [← any_emptyKey_placeless, hargs, any_emptyKey_placeless, List.any_eq_false]
  intro a ha hempty
  obtain ⟨key, hkey, htext⟩ := (Option.any_eq_true ..).mp hempty
  exact hnamed a ha key hkey htext

section Separated

variable {β : Type} {items : List β} {text : β → String} {arg : β → Argument}

/-- Texts with a gap, a comma or both between any two of them are an argument list, if each of them is
read as its argument in front of what follows it. -/
theorem readList_separated {separator : String} {ends : β → List Char → Prop}
    (hseparator : Lexeme.MayHaveComma separator.toList) (hne : separator.toList ≠ [])
    (hbegins : ∀ b ∈ items, ∃ c r, (text b).toList = c :: r ∧ Lexeme.isGap c = false ∧ c ≠ ',')
    (hfollows : items.IsChain fun b b' =>
      ∀ rest, ends b (separator.toList ++ (text b').toList ++ rest))
    (hfinal : ∀ b ∈ items, ends b [])
    (hreads : ∀ b ∈ items, ∀ n rest, (text b).toList.length ≤ n → ends b rest →
      Reads (argument (expressionAt n)) ((text b).toList ++ rest) fun a r =>
        a.placeless = (arg b).placeless ∧ afterGap r = afterGap rest)
    (hnamed : ∀ b ∈ items, ∀ key ∈ (arg b).key, ¬ key.text.isEmpty = true) :
    ∃ args, readList (separator.intercalate (items.map text)) = .ok args ∧
      args.map Argument.placeless = (items.map arg).map Argument.placeless := by
  have hgap : ∀ b ∈ items, ∀ rest, afterGap ((text b).toList ++ rest) = (text b).toList ++ rest := by
    intro b hb rest
    obtain ⟨c, r, htext, hc, -⟩ := hbegins b hb
    rw [htext]
    exact afterGap_cons hc _
  have hsource : (separator.intercalate (items.map text)).toList =
      List.intercalate separator.toList (items.map fun b => (text b).toList) := by
    rw [String.toList_intercalate, List.map_map]
    rfl
  refine readList_of_reads (fun n hn => ?_) fun a ha => ?_
  · rw [hsource] at hn ⊢
    rw [List.map_map]
    refine reads_signature_of_series (series_argument hne (fun b hb rest => ?_) hfollows
      fun b hb rest => ?_) hgap fun b hb => hfinal b (List.mem_of_getLast? hb)
    · obtain ⟨c, r, htext, hc, hcomma⟩ := hbegins b hb
      rw [List.append_assoc, htext]
      exact afterComma_append hseparator hc hcomma (r ++ rest)
    · have hle := length_le_intercalate separator.toList (fun b => (text b).toList) hb
      exact hreads b hb n rest (Nat.le_trans hle hn)
  · obtain ⟨b, hb, rfl⟩ := List.mem_map.mp ha
    exact hnamed b hb

/-- Arguments with a blank between any two of them are read as these arguments. -/
theorem readList_blankSeparated (h : ∀ b ∈ items, (arg b).IsReadFrom (text b)) :
    ∃ args, readList (" ".intercalate (items.map text)) = .ok args ∧
      args.map Argument.placeless = (items.map arg).map Argument.placeless := by
  have hfollows : items.IsChain fun _ b' => ∀ rest, LeafEnds ([' '] ++ (text b').toList ++ rest) := by
    refine isChain_of_forall fun b hb rest => ⟨Lexeme.delimited_cons (by decide) _, ?_⟩
    obtain ⟨c, r, htext, hgap, hc⟩ := (h b hb).begins
    have hafter : afterGap ([' '] ++ (text b).toList ++ rest) = c :: (r ++ rest) := by
      rw [htext]
      exact afterGap_cons hgap _
    rw [hafter]
    intro d hd hmem
    cases hd
    exact hc (List.mem_cons_of_mem _ hmem)
  refine readList_separated (Or.inl Lexeme.isGap_of_mem_blank) (List.cons_ne_nil _ _)
    (fun b hb => ?_) hfollows (fun _ _ => leafEnds_of_isGap Lexeme.gap_nil)
    (fun b hb n rest _ hrest => (h b hb).reads _ rest hrest) fun b hb => (h b hb).named
  obtain ⟨c, r, htext, hgap, hc⟩ := (h b hb).begins
  exact ⟨c, r, htext, hgap, fun heq => hc (by simp [heq])⟩

end Separated

/-- A single argument is read as it stands. -/
theorem exists_readList {a : Argument} {text : String} (h : a.IsReadFrom text) :
    ∃ args, readList text = .ok args ∧
      args.map Argument.placeless = [a].map Argument.placeless := by
  have hread : ∃ args, readList (" ".intercalate ([()].map fun _ => text)) = .ok args ∧
      args.map Argument.placeless = ([()].map fun _ => a).map Argument.placeless :=
    readList_blankSeparated fun _ _ => h
  rwa [List.map_singleton, List.map_singleton, String.intercalate_singleton] at hread

end Argument

end TagTemplate
