import TagTemplate.Proofs.Expression.WellQuoted
import TagTemplate.Template.Part

/-!
# Where the pieces of a source end

The scanner that looks for the end of a piece knows quotes and backslashes and no grammar. Over
well-quoted text it is never inside a string at the end of a string literal, so the end that it
finds does not depend on anything behind it, and the fallback for strings that are not closed is not
taken.

* `splitOutsideStrings_of_not_closesIn`: well-quoted text with no closer outside its strings is the
  content of the piece, and `exists_split_of_closesIn`: otherwise the content is shorter.
* `exists_pieces_append`: if the content of every marked piece is well quoted, more source behind
  leaves the pieces as they are, except that it goes on with a text at their end.
-/

namespace TagTemplate.Lexeme

/-- The text without its strings: of every string only the quote stays that begins it. `quote` is
that of the string in which the text begins. -/
def withoutStrings : (quote : Option Char) → List Char → List Char
  | _, [] => []
  | some q, '\\' :: _ :: cs => withoutStrings (some q) cs
  | some q, c :: cs => withoutStrings (if c = q then none else some q) cs
  | none, c :: cs => c :: withoutStrings (if c = '"' ∨ c = '\'' then some c else none) cs

theorem head?_withoutStrings (cs : List Char) : (withoutStrings none cs).head? = cs.head? := by
  cases cs with
  | nil => rfl
  | cons c cs =>
    rw [withoutStrings]
    rfl

theorem isPlain_ne_quote {c : Char} (h : IsPlain c) : ¬ (c = '"' ∨ c = '\'') := by
  rintro (rfl | rfl) <;> exact h (by decide)

theorem withoutStrings_cons_of_isPlain {c : Char} (hc : IsPlain c) (cs : List Char) :
    withoutStrings none (c :: cs) = c :: withoutStrings none cs := by
  rw [withoutStrings, if_neg (isPlain_ne_quote hc)]

theorem ne_slash_of_quote {q : Char} (hq : q = '"' ∨ q = '\'') : q ≠ '\\' := by
  rcases hq with rfl | rfl <;> decide

theorem withoutStrings_inside {q : Char} (hq : q = '"' ∨ q = '\'') {inside : List Char}
    (h : Inside q inside) (cs : List Char) :
    withoutStrings (some q) (inside ++ q :: cs) = withoutStrings none cs := by
  induction h with
  | nil =>
    rw [List.nil_append, withoutStrings, if_pos rfl]
    exact fun _ _ h _ => ne_slash_of_quote hq h
  | escape h ih => exact ih
  | char hquote hslash h ih =>
    rw [List.cons_append, withoutStrings, if_neg hquote]
    · exact ih
    · exact fun _ _ h _ => hslash h

theorem withoutStrings_string {q : Char} (hq : q = '"' ∨ q = '\'') {inside : List Char}
    (h : Inside q inside) (cs : List Char) :
    withoutStrings none (q :: (inside ++ q :: cs)) = q :: withoutStrings none cs := by
  rw [withoutStrings, if_pos hq, withoutStrings_inside hq h]

end TagTemplate.Lexeme

namespace TagTemplate.Template

open Lexeme (WellQuoted Inside IsPlain withoutStrings)

/-! ## Closers -/

theorem closer_prefix_cons_iff {m : Mark} {c : Char} {cs : List Char} :
    m.closer <+: c :: cs ↔ c = m.closing ∧ cs.head? = some '\x7d' := by
  rw [Mark.closer, List.cons_prefix_cons, eq_comm]
  refine and_congr_right fun _ => ?_
  cases cs with
  | nil => simp
  | cons d cs => simp [List.cons_prefix_cons, eq_comm]

theorem closing_ne_quote (m : Mark) {q : Char} (hq : q = '"' ∨ q = '\'') : q ≠ m.closing := by
  rcases hq with rfl | rfl <;> cases m <;> decide

/-- A step of the scanner outside strings. -/
theorem splitOutsideStrings_cons {m : Mark} {c : Char} (hc : ¬ (c = '"' ∨ c = '\''))
    (cs : List Char) :
    splitOutsideStrings m none (c :: cs) =
      if c = m.closing ∧ cs.head? = some '\x7d' then some ([], cs.drop 1)
      else prepend c (splitOutsideStrings m none cs) := by
  rw [splitOutsideStrings, if_neg hc]
  simp only [List.isPrefixOf_iff_prefix, closer_prefix_cons_iff]

theorem splitOutsideStrings_closer (m : Mark) (rest : List Char) :
    splitOutsideStrings m none (m.closer ++ rest) = some ([], rest) := by
  show splitOutsideStrings m none (m.closing :: '\x7d' :: rest) = _
  rw [splitOutsideStrings_cons (fun hq => closing_ne_quote m hq rfl), if_pos ⟨rfl, rfl⟩]
  rfl

/-- The scanner passes over the inside of a string. -/
theorem splitOutsideStrings_inside {m : Mark} {q : Char} (hq : q = '"' ∨ q = '\'')
    {inside : List Char} (h : Inside q inside) (cs : List Char) :
    splitOutsideStrings m (some q) (inside ++ q :: cs) =
      (splitOutsideStrings m none cs).map
        fun (content, rest) => (inside ++ q :: content, rest) := by
  induction h with
  | nil =>
    rw [List.nil_append, splitOutsideStrings, if_pos rfl]
    · cases splitOutsideStrings m none cs <;> rfl
    · exact fun _ _ h _ => Lexeme.ne_slash_of_quote hq h
  | escape h ih =>
    rw [List.cons_append, List.cons_append, splitOutsideStrings, ih]
    cases splitOutsideStrings m none cs <;> rfl
  | char hquote hslash h ih =>
    rw [List.cons_append, splitOutsideStrings, if_neg hquote, ih]
    · cases splitOutsideStrings m none cs <;> rfl
    · exact fun _ _ h _ => hslash h

/-- The scanner passes over a string. -/
theorem splitOutsideStrings_string {m : Mark} {q : Char} (hq : q = '"' ∨ q = '\'')
    {inside : List Char} (h : Inside q inside) (cs : List Char) :
    splitOutsideStrings m none (q :: (inside ++ q :: cs)) =
      (splitOutsideStrings m none cs).map
        fun (content, rest) => (q :: (inside ++ q :: content), rest) := by
  rw [splitOutsideStrings, if_pos hq, splitOutsideStrings_inside hq h]
  cases splitOutsideStrings m none cs <;> rfl

/-! ## The content of a piece -/

/-- Is there a closer in the text that is not in a string, or one that begins in the text and goes
on in the closer behind it? -/
def ClosesIn (m : Mark) (cs : List Char) : Prop :=
  m.closer <:+: withoutStrings none cs ++ [m.closing]

instance (m : Mark) (cs : List Char) : Decidable (ClosesIn m cs) :=
  inferInstanceAs (Decidable (_ <:+: _))

theorem not_closesIn_nil (m : Mark) : ¬ ClosesIn m [] := by
  cases m <;> decide

/-- A closer begins at a plain character, or after it. -/
theorem closesIn_cons_iff {m : Mark} {c : Char} (hc : IsPlain c) (cs rest : List Char) :
    ClosesIn m (c :: cs) ↔
      (c = m.closing ∧ (cs ++ (m.closer ++ rest)).head? = some '\x7d') ∨ ClosesIn m cs := by
  unfold ClosesIn
  rw [Lexeme.withoutStrings_cons_of_isPlain hc, List.cons_append, List.infix_cons_iff,
    closer_prefix_cons_iff, List.head?_append, List.head?_append, Lexeme.head?_withoutStrings]
  rfl

theorem closesIn_string_iff {m : Mark} {q : Char} (hq : q = '"' ∨ q = '\'') {inside : List Char}
    (h : Inside q inside) (cs : List Char) :
    ClosesIn m (q :: (inside ++ q :: cs)) ↔ ClosesIn m cs := by
  unfold ClosesIn
  rw [Lexeme.withoutStrings_string hq h, List.cons_append, List.infix_cons_iff,
    closer_prefix_cons_iff]
  exact or_iff_right fun hprefix => closing_ne_quote m hq hprefix.1

/-- Plain characters have no percent sign among them. -/
theorem not_closesIn_block {cs : List Char} (h : WellQuoted cs) : ¬ ClosesIn .block cs := by
  induction h with
  | nil => exact not_closesIn_nil _
  | plain hc h ih =>
    rw [closesIn_cons_iff hc _ [], not_or]
    refine ⟨fun ⟨hpercent, _⟩ => ?_, ih⟩
    subst hpercent
    exact hc (by decide)
  | string hq hinside h ih => rwa [closesIn_string_iff hq hinside]

/-- Well-quoted text in front of a closer is the content, if there is no closer in it. -/
theorem splitOutsideStrings_of_not_closesIn {m : Mark} {cs : List Char} (h : WellQuoted cs)
    (hcloses : ¬ ClosesIn m cs) (rest : List Char) :
    splitOutsideStrings m none (cs ++ (m.closer ++ rest)) = some (cs, rest) := by
  induction h with
  | nil => exact splitOutsideStrings_closer m rest
  | @plain c cs hc h ih =>
    rw [closesIn_cons_iff hc cs rest, not_or] at hcloses
    rw [List.cons_append, splitOutsideStrings_cons (Lexeme.isPlain_ne_quote hc),
      if_neg hcloses.1, ih hcloses.2]
    rfl
  | string hq hinside h ih =>
    rw [closesIn_string_iff hq hinside] at hcloses
    rw [List.cons_append, List.append_assoc, List.cons_append,
      splitOutsideStrings_string hq hinside, ih hcloses]
    rfl

/-- If there is a closer in it, the content ends there. -/
theorem exists_split_of_closesIn {m : Mark} {cs : List Char} (h : WellQuoted cs)
    (hcloses : ClosesIn m cs) (rest : List Char) :
    ∃ content left, splitOutsideStrings m none (cs ++ (m.closer ++ rest)) = some (content, left) ∧
      content.length < cs.length := by
  induction h with
  | nil => exact absurd hcloses (not_closesIn_nil m)
  | @plain c cs hc h ih =>
    rw [List.cons_append, splitOutsideStrings_cons (Lexeme.isPlain_ne_quote hc)]
    by_cases hhere : c = m.closing ∧ (cs ++ (m.closer ++ rest)).head? = some '\x7d'
    · rw [if_pos hhere]
      exact ⟨[], _, rfl, Nat.succ_pos _⟩
    · rw [if_neg hhere]
      rw [closesIn_cons_iff hc cs rest] at hcloses
      obtain ⟨content, left, hsplit, hlength⟩ := ih (hcloses.resolve_left hhere)
      rw [hsplit]
      exact ⟨c :: content, left, rfl, Nat.succ_lt_succ hlength⟩
  | @string q inside cs hq hinside h ih =>
    rw [closesIn_string_iff hq hinside] at hcloses
    obtain ⟨content, left, hsplit, hlength⟩ := ih hcloses
    rw [List.cons_append, List.append_assoc, List.cons_append,
      splitOutsideStrings_string hq hinside, hsplit]
    refine ⟨q :: (inside ++ q :: content), left, rfl, ?_⟩
    simp only [List.length_cons, List.length_append]
    omega

theorem exists_splitOutsideStrings {m : Mark} {cs : List Char} (h : WellQuoted cs)
    (rest : List Char) :
    ∃ content left,
      splitOutsideStrings m none (cs ++ (m.closer ++ rest)) = some (content, left) := by
  by_cases hcloses : ClosesIn m cs
  · obtain ⟨content, left, hsplit, -⟩ := exists_split_of_closesIn h hcloses rest
    exact ⟨content, left, hsplit⟩
  · exact ⟨cs, rest, splitOutsideStrings_of_not_closesIn h hcloses rest⟩

theorem splitAtCloser_of_splitOutsideStrings {m : Mark} (hm : m ≠ .comment) {cs : List Char}
    {split : List Char × List Char} (h : splitOutsideStrings m none cs = some split) :
    splitAtCloser m cs = some split := by
  cases m with
  | comment => exact absurd rfl hm
  | output => rw [splitAtCloser, h]; exact fun h => by cases h
  | block => rw [splitAtCloser, h]; exact fun h => by cases h

/-- A piece with well-quoted content was not ended by the fallback. -/
theorem splitOutsideStrings_of_splitAtCloser {m : Mark} (hm : m ≠ .comment)
    {cs content rest : List Char} (h : splitAtCloser m cs = some (content, rest))
    (hquoted : WellQuoted content) : splitOutsideStrings m none cs = some (content, rest) := by
  have hcs := source_of_splitAtCloser h
  obtain ⟨content', rest', hsplit⟩ := exists_splitOutsideStrings (m := m) hquoted rest
  rw [← hcs] at hsplit
  rw [splitAtCloser_of_splitOutsideStrings hm hsplit] at h
  rw [hsplit, h]

/-! ## More source behind -/

theorem splitAtFirst_cons (m : Mark) (c : Char) (cs : List Char) :
    splitAtFirst m (c :: cs) =
      if c = m.closing ∧ cs.head? = some '\x7d' then some ([], cs.drop 1)
      else prepend c (splitAtFirst m cs) := by
  rw [splitAtFirst]
  simp only [List.isPrefixOf_iff_prefix, closer_prefix_cons_iff]

/-- A split of a longer text agrees, if it does after the first character. -/
theorem prepend_append {α : Type} {c : Char} {split longer : Option (List Char × α)}
    {before : List Char} {a b : α} (h : prepend c split = some (before, a))
    (hlonger : ∀ tail, split = some (tail, a) → longer = some (tail, b)) :
    prepend c longer = some (before, b) := by
  obtain ⟨tail, rfl, hsplit⟩ := prepend_eq_some_iff.mp h
  exact prepend_eq_some_iff.mpr ⟨tail, rfl, hlonger tail hsplit⟩

/-- A closer is still found at the same place. -/
theorem splitAtFirst_append {m : Mark} {cs content rest : List Char}
    (h : splitAtFirst m cs = some (content, rest)) (more : List Char) :
    splitAtFirst m (cs ++ more) = some (content, rest ++ more) := by
  induction cs generalizing content with
  | nil => cases h
  | cons c cs ih =>
    cases cs with
    | nil =>
      rw [splitAtFirst_cons, if_neg (fun hc => by cases hc.2)] at h
      cases h
    | cons d cs =>
      rw [splitAtFirst_cons] at h
      rw [List.cons_append, splitAtFirst_cons]
      by_cases hclose : c = m.closing ∧ (d :: cs).head? = some '\x7d'
      · rw [if_pos hclose] at h
        cases h
        exact if_pos hclose
      · rw [if_neg hclose] at h
        exact (if_neg hclose).trans (prepend_append h fun _ => ih)

theorem splitOutsideStrings_append {m : Mark} {quote : Option Char} {cs content rest : List Char}
    (h : splitOutsideStrings m quote cs = some (content, rest)) (more : List Char) :
    splitOutsideStrings m quote (cs ++ more) = some (content, rest ++ more) := by
  fun_induction splitOutsideStrings m quote cs generalizing content with
  | case1 => cases h
  | case2 q c cs ih =>
    exact prepend_append h fun _ h => prepend_append h fun _ => ih
  | case3 q c cs hslash ih =>
    rw [List.cons_append, splitOutsideStrings]
    · exact prepend_append h fun _ => ih
    · rintro d ds rfl heq
      cases cs with
      | nil => cases h
      | cons => cases heq; exact hslash _ _ rfl rfl
  | case4 c cs hquote ih =>
    rw [List.cons_append, splitOutsideStrings, if_pos hquote]
    exact prepend_append h fun _ => ih
  | case5 c cs hquote hclose =>
    cases h
    rw [List.isPrefixOf_iff_prefix, closer_prefix_cons_iff] at hclose
    cases cs with
    | nil => cases hclose.2
    | cons d cs => exact (splitOutsideStrings_cons hquote _).trans (if_pos hclose)
  | case6 c cs hquote hclose ih =>
    rw [List.isPrefixOf_iff_prefix, closer_prefix_cons_iff] at hclose
    cases cs with
    | nil => cases h
    | cons d cs =>
      rw [List.cons_append, splitOutsideStrings_cons hquote, List.cons_append]
      exact (if_neg hclose).trans (prepend_append h fun _ => ih)

/-- The pieces of a source end where they did, if the content of marked ones is well quoted. -/
theorem splitAtCloser_append {m : Mark} {cs content rest : List Char}
    (h : splitAtCloser m cs = some (content, rest)) (hquoted : m ≠ .comment → WellQuoted content)
    (more : List Char) : splitAtCloser m (cs ++ more) = some (content, rest ++ more) := by
  by_cases hm : m = .comment
  · subst hm
    exact splitAtFirst_append h more
  · have hsplit := splitOutsideStrings_of_splitAtCloser hm h (hquoted hm)
    exact splitAtCloser_of_splitOutsideStrings hm (splitOutsideStrings_append hsplit more)

/-- The mark of the opener with which a text begins. -/
def markAt? (c : Char) (cs : List Char) : Option Mark :=
  if c = '\x7b' then cs.head?.bind Mark.ofChar? else none

theorem markAt?_nil (c : Char) : markAt? c [] = none :=
  ite_self none

theorem splitAtOpener_of_mark {c : Char} {cs : List Char} {m : Mark} (h : markAt? c cs = some m) :
    splitAtOpener (c :: cs) = some ([], m, cs.drop 1) := by
  unfold markAt? at h
  rw [splitAtOpener, h]

theorem splitAtOpener_of_not_mark {c : Char} {cs : List Char} (h : markAt? c cs = none) :
    splitAtOpener (c :: cs) = prepend c (splitAtOpener cs) := by
  unfold markAt? at h
  rw [splitAtOpener, h]

/-- An opener is still found at the same place. -/
theorem splitAtOpener_append {cs before rest : List Char} {m : Mark}
    (h : splitAtOpener cs = some (before, m, rest)) (more : List Char) :
    splitAtOpener (cs ++ more) = some (before, m, rest ++ more) := by
  induction cs generalizing before with
  | nil => cases h
  | cons c cs ih =>
    cases cs with
    | nil =>
      rw [splitAtOpener_of_not_mark (markAt?_nil c)] at h
      cases h
    | cons d cs =>
      cases hmark : markAt? c (d :: cs) with
      | some k =>
        rw [splitAtOpener_of_mark hmark] at h
        cases h
        exact splitAtOpener_of_mark hmark
      | none =>
        have hlonger : markAt? c (d :: cs ++ more) = none := hmark
        rw [splitAtOpener_of_not_mark hmark] at h
        rw [List.cons_append, splitAtOpener_of_not_mark hlonger]
        exact prepend_append h fun _ => ih

theorem splitAtOpener_cons_eq_none {c : Char} {cs : List Char}
    (h : splitAtOpener (c :: cs) = none) :
    markAt? c cs = none ∧ splitAtOpener cs = none := by
  cases hmark : markAt? c cs with
  | some m =>
    rw [splitAtOpener_of_mark hmark] at h
    cases h
  | none =>
    rw [splitAtOpener_of_not_mark hmark] at h
    cases hsplit : splitAtOpener cs with
    | none => exact ⟨rfl, rfl⟩
    | some split =>
      rw [hsplit] at h
      cases h

/-- Text without openers is passed over, if none begins at its end. -/
theorem splitAtOpener_text_append {cs : List Char} (h : splitAtOpener cs = none)
    (hend : cs.getLast? ≠ some '\x7b') (more : List Char) :
    splitAtOpener (cs ++ more) =
      (splitAtOpener more).map fun (before, m, rest) => (cs ++ before, m, rest) := by
  induction cs with
  | nil => exact Option.map_id'.symm
  | cons c cs ih =>
    obtain ⟨hmark, hcs⟩ := splitAtOpener_cons_eq_none h
    have hlonger : markAt? c (cs ++ more) = none ∧ cs.getLast? ≠ some '\x7b' := by
      cases cs with
      | nil =>
        refine ⟨if_neg fun hc => hend ?_, fun h => by cases h⟩
        rw [hc]
        rfl
      | cons d cs =>
        rw [List.getLast?_cons_cons] at hend
        exact ⟨hmark, hend⟩
    rw [List.cons_append, splitAtOpener_of_not_mark hlonger.1, ih hcs hlonger.2]
    cases splitAtOpener more <;> rfl

theorem splitPiece_append {cs before content rest : List Char} {m : Mark}
    (h : splitPiece cs = some (before, m, content, rest))
    (hquoted : m ≠ .comment → WellQuoted content) (more : List Char) :
    splitPiece (cs ++ more) = some (before, m, content, rest ++ more) := by
  unfold splitPiece at h
  split at h
  next => cases h
  next before' m' inner hopen =>
    obtain ⟨⟨content', rest'⟩, hclose, heq⟩ := Option.map_eq_some_iff.mp h
    cases heq
    unfold splitPiece
    rw [splitAtOpener_append hopen]
    dsimp only
    rw [splitAtCloser_append hclose hquoted]
    rfl

theorem splitPiece_text_append {cs : List Char} (h : splitAtOpener cs = none)
    (hend : cs.getLast? ≠ some '\x7b') (more : List Char) :
    splitPiece (cs ++ more) =
      (splitPiece more).map fun (before, m, content, rest) => (cs ++ before, m, content, rest) := by
  unfold splitPiece
  rw [splitAtOpener_text_append h hend]
  cases splitAtOpener more with
  | none => rfl
  | some split =>
    obtain ⟨before, m, inner⟩ := split
    simp only [Option.map_some]
    cases splitAtCloser m inner <;> rfl

/-! ## Cutting -/

theorem pieces_of_splitPiece {cs before content rest : List Char} {m : Mark}
    (h : splitPiece cs = some (before, m, content, rest)) :
    pieces cs = textPieces before ++ .marked m content :: pieces rest := by
  rw [pieces]
  split
  next hnone => rw [h] at hnone; cases hnone
  next hsome =>
    rw [h] at hsome
    cases hsome
    rfl

theorem pieces_of_splitPiece_none {cs : List Char} (h : splitPiece cs = none) :
    pieces cs = textPieces cs := by
  rw [pieces]
  split
  next => rfl
  next hsome => rw [h] at hsome; cases hsome

/-- A text without braces is not cut. -/
theorem pieces_of_notMem {cs : List Char} (h : '\x7b' ∉ cs) : pieces cs = textPieces cs := by
  have hopener : splitAtOpener cs = none := by
    induction cs with
    | nil => rfl
    | cons c cs ih =>
      obtain ⟨hc, hcs⟩ := not_or.mp (mt List.mem_cons.mpr h)
      rw [splitAtOpener_of_not_mark (if_neg (Ne.symm hc)), ih hcs]
      rfl
  refine pieces_of_splitPiece_none ?_
  unfold splitPiece
  rw [hopener]

/-- A source that begins with a marked piece. -/
theorem pieces_opener_append {m : Mark} {inner content rest : List Char}
    (h : splitAtCloser m inner = some (content, rest)) :
    pieces (m.opener ++ inner) = .marked m content :: pieces rest := by
  have hopen : splitAtOpener (m.opener ++ inner) = some ([], m, inner) := by
    cases m <;> rfl
  have hsplit : splitPiece (m.opener ++ inner) = some ([], m, content, rest) := by
    unfold splitPiece
    rw [hopen]
    dsimp only
    rw [h]
    rfl
  exact pieces_of_splitPiece hsplit

theorem pieces_nil : pieces [] = [] := by
  have hsplit : splitPiece [] = none := rfl
  rw [pieces_of_splitPiece_none hsplit]
  rfl

/-- The pieces with a text in front, which becomes one with a text at their beginning. -/
def pushText (cs : List Char) : List Piece → List Piece
  | .text content :: ps => .text (cs ++ content) :: ps
  | ps => textPieces cs ++ ps

theorem textPieces_of_ne_nil {cs : List Char} (h : cs ≠ []) : textPieces cs = [.text cs] := by
  rw [textPieces, if_neg (mt List.isEmpty_iff.mp h)]

theorem pushText_textPieces (cs content : List Char) (ps : List Piece)
    (h : ∀ c rest, ps ≠ .text c :: rest) :
    pushText cs (textPieces content ++ ps) = textPieces (cs ++ content) ++ ps := by
  by_cases hcontent : content = []
  · subst hcontent
    rw [List.append_nil]
    cases ps with
    | nil => rfl
    | cons p ps =>
      cases p with
      | text c => exact absurd rfl (h c ps)
      | marked m c => rfl
  · have hboth : cs ++ content ≠ [] := fun heq => hcontent (List.append_eq_nil_iff.mp heq).2
    rw [textPieces_of_ne_nil hcontent, textPieces_of_ne_nil hboth]
    rfl

/-- Text without openers in front of a source. -/
theorem pieces_text_append {cs : List Char} (h : splitAtOpener cs = none)
    (hend : cs.getLast? ≠ some '\x7b') (more : List Char) :
    pieces (cs ++ more) = pushText cs (pieces more) := by
  have hsplit := splitPiece_text_append h hend more
  cases hmore : splitPiece more with
  | none =>
    rw [hmore] at hsplit
    have htext := pushText_textPieces cs more [] fun _ _ h => by cases h
    rw [List.append_nil, List.append_nil] at htext
    rw [pieces_of_splitPiece_none hsplit, pieces_of_splitPiece_none hmore, htext]
  | some split =>
    obtain ⟨before, m, content, rest⟩ := split
    rw [hmore] at hsplit
    rw [pieces_of_splitPiece hsplit, pieces_of_splitPiece hmore,
      pushText_textPieces cs before _ fun _ _ h => by cases h]

theorem splitAtOpener_eq_none {cs : List Char} (h : ∀ m : Mark, ¬ m.opener <:+: cs) :
    splitAtOpener cs = none := by
  cases hsplit : splitAtOpener cs with
  | none => rfl
  | some split =>
    obtain ⟨before, m, rest⟩ := split
    refine absurd ⟨before, rest, ?_⟩ (h m)
    rw [List.append_assoc, ← source_of_splitAtOpener hsplit]

/-- The pieces of a source do not depend on what is behind it, if no text in it has an opener, none
begins at its end, and the content of outputs and blocks is well quoted. A text at its end goes on
in a text behind it. -/
theorem exists_pieces_append {cs : List Char} (hend : cs.getLast? ≠ some '\x7b')
    (htext : ∀ content, .text content ∈ pieces cs → ∀ m : Mark, ¬ m.opener <:+: content)
    (hquoted : ∀ m content, .marked m content ∈ pieces cs → m ≠ .comment → WellQuoted content) :
    ∃ front last, pieces cs = front ++ textPieces last ∧
      ∀ more, pieces (cs ++ more) = front ++ pushText last (pieces more) := by
  fun_induction pieces cs with
  | case1 cs hsplit =>
    refine ⟨[], cs, rfl, fun more => pieces_text_append ?_ hend more⟩
    by_cases hcs : cs = []
    · subst hcs
      rfl
    · rw [textPieces_of_ne_nil hcs] at htext
      exact splitAtOpener_eq_none (htext cs (List.mem_singleton_self _))
  | case2 cs before m content rest hsplit _ ih =>
    have hmarked := hquoted m content (List.mem_append_right _ (List.mem_cons_self ..))
    have hrest : rest.getLast? ≠ some '\x7b' := by
      intro hlast
      rw [source_of_splitPiece hsplit, ← List.append_assoc, List.getLast?_append, hlast] at hend
      exact hend rfl
    -- what holds of the pieces of `cs` holds of those of `rest`
    have hmem : ∀ p, p ∈ pieces rest →
        p ∈ textPieces before ++ .marked m content :: pieces rest :=
      fun p hp => List.mem_append_right _ (List.mem_cons_of_mem _ hp)
    obtain ⟨front, last, hpieces, hmore⟩ := ih hrest (fun _ h => htext _ (hmem _ h))
      fun _ _ h => hquoted _ _ (hmem _ h)
    refine ⟨textPieces before ++ .marked m content :: front, last, ?_, fun more => ?_⟩
    · rw [hpieces, List.append_assoc, List.cons_append]
    · rw [pieces_of_splitPiece (splitPiece_append hsplit hmarked more), hmore, List.append_assoc,
        List.cons_append]

end TagTemplate.Template
