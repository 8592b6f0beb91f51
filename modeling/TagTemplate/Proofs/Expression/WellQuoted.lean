import TagTemplate.Proofs.Expression.Lexeme

/-!
# Text whose strings are closed

Whatever an argument list consists of, its quotes belong to string literals: outside of them stand
only names, numbers, brackets and separators. `WellQuoted` says this of a text without its grammar,
so that whoever scans template source for the end of a piece, and knows of quotes and backslashes
only, can be told that every string that begins in such a text also ends in it.

> `WellQuoted.append`: well-quoted texts can be put together.

Every class of lexeme splits well-quoted text off the front of a text (the lemmas named
`…_eq_some`), and loses nothing of it.
-/

namespace TagTemplate.Lexeme

/-- A character that argument lists have outside strings. -/
def IsPlain (c : Char) : Prop :=
  c ∉ ['"', '\'', '%']

instance (c : Char) : Decidable (IsPlain c) :=
  inferInstanceAs (Decidable (¬ _))

/-- Text inside a string in the quotes `q`: every such quote, and every backslash, stands behind a
backslash. -/
inductive Inside (q : Char) : List Char → Prop
  | nil : Inside q []
  | escape {c : Char} {cs : List Char} (h : Inside q cs) : Inside q ('\\' :: c :: cs)
  | char {c : Char} {cs : List Char} (hquote : c ≠ q) (hslash : c ≠ '\\') (h : Inside q cs) :
      Inside q (c :: cs)

/-- Text that is made of string literals and of plain characters. -/
inductive WellQuoted : List Char → Prop
  | nil : WellQuoted []
  | plain {c : Char} {cs : List Char} (hc : IsPlain c) (h : WellQuoted cs) : WellQuoted (c :: cs)
  | string {q : Char} {inside cs : List Char} (hq : q = '"' ∨ q = '\'') (hinside : Inside q inside)
      (h : WellQuoted cs) : WellQuoted (q :: (inside ++ q :: cs))

theorem WellQuoted.append {as bs : List Char} (ha : WellQuoted as) (hb : WellQuoted bs) :
    WellQuoted (as ++ bs) := by
  induction ha with
  | nil => exact hb
  | plain hc h ih => exact .plain hc ih
  | string hq hinside h ih =>
    rw [List.cons_append, List.append_assoc, List.cons_append]
    exact .string hq hinside ih

/-- Text without quotes and percent signs. -/
theorem wellQuoted_of_isPlain {cs : List Char} (h : ∀ c ∈ cs, IsPlain c) : WellQuoted cs := by
  induction cs with
  | nil => exact .nil
  | cons c cs ih =>
    obtain ⟨hc, hcs⟩ := List.forall_mem_cons.mp h
    exact .plain hc (ih hcs)

/-! ## Plain characters -/

/-- A class of characters is plain if the three others are not in it. -/
theorem isPlain_of_all {q : Char → Bool} (hq : ['"', '\'', '%'].all (!q ·) = true) {c : Char}
    (h : q c = true) : IsPlain c := by
  intro hc
  have hother := List.all_eq_true.mp hq c hc
  rw [h] at hother
  cases hother

theorem isPlain_of_isNameChar {c : Char} (h : isNameChar c = true) : IsPlain c :=
  isPlain_of_all (by decide) h

theorem isPlain_of_isNameStart {c : Char} (h : isNameStart c = true) : IsPlain c :=
  isPlain_of_isNameChar (isNameChar_of_isNameStart h)

theorem isPlain_of_isDigit {c : Char} (h : c.isDigit = true) : IsPlain c :=
  isPlain_of_isNameChar (isNameChar_of_isDigit h)

theorem isPlain_of_isGap {c : Char} (h : isGap c = true) : IsPlain c :=
  isPlain_of_all (by decide) h

/-- The run of a class of plain characters. -/
theorem wellQuoted_takeWhile {q : Char → Bool} (hq : ∀ c, q c = true → IsPlain c)
    (cs : List Char) : WellQuoted (cs.takeWhile q) :=
  wellQuoted_of_isPlain fun c hc => hq c (List.all_eq_true.mp List.all_takeWhile c hc)

/-! ## Lexemes -/

/-- The split takes well-quoted text off the front of `cs`, if it takes any. -/
def TakesQuoted (cs : List Char) (s : Split) : Prop :=
  ∀ taken rest, s = some (taken, rest) → cs = taken ++ rest ∧ WellQuoted taken

theorem takesQuoted_none (cs : List Char) : TakesQuoted cs none :=
  fun _ _ h => by cases h

theorem takesQuoted_some {taken : List Char} (h : WellQuoted taken) (rest : List Char) :
    TakesQuoted (taken ++ rest) (some (taken, rest)) := by
  intro _ _ heq
  cases heq
  exact ⟨rfl, h⟩

/-- The longest run of a class of plain characters. -/
theorem takesQuoted_run {q : Char → Bool} (hq : ∀ c, q c = true → IsPlain c) (cs : List Char) :
    TakesQuoted cs (some (cs.takeWhile q, cs.dropWhile q)) := by
  have hrun := takesQuoted_some (wellQuoted_takeWhile hq cs) (cs.dropWhile q)
  rwa [List.takeWhile_append_dropWhile] at hrun

/-- A plain character in front of a split. -/
theorem TakesQuoted.cons {c : Char} {cs : List Char} {s : Split} (hc : IsPlain c)
    (h : TakesQuoted cs s) :
    TakesQuoted (c :: cs) (s.map fun (taken, rest) => (c :: taken, rest)) := by
  intro taken rest heq
  obtain ⟨⟨ds, left⟩, hs, hpair⟩ := Option.map_eq_some_iff.mp heq
  cases hpair
  obtain ⟨hcs, hds⟩ := h ds rest hs
  rw [hcs]
  exact ⟨rfl, .plain hc hds⟩

theorem TakesQuoted.wholeWord {cs : List Char} {s : Split} (h : TakesQuoted cs s) :
    TakesQuoted cs (wholeWord s) :=
  fun taken rest heq => h taken rest (wholeWord_eq_some_iff.mp heq).1

theorem takesQuoted_name? (cs : List Char) : TakesQuoted cs (name? cs) := by
  cases cs with
  | nil => exact takesQuoted_none _
  | cons c cs =>
    rw [name?]
    split
    next hstart =>
      have hquoted := wellQuoted_takeWhile (fun _ => isPlain_of_isNameChar) cs
      have hrun := takesQuoted_some (.plain (isPlain_of_isNameStart hstart) hquoted)
        (cs.dropWhile isNameChar)
      rwa [List.cons_append, List.takeWhile_append_dropWhile] at hrun
    next => exact takesQuoted_none _

theorem dashedRun_eq (cs : List Char) :
    cs = (dashedRun cs).1 ++ (dashedRun cs).2 ∧ WellQuoted (dashedRun cs).1 := by
  fun_induction dashedRun cs with
  | case1 => exact ⟨rfl, .nil⟩
  | case2 c cs hname taken rest hrun ih =>
    rw [hrun] at ih
    obtain ⟨rfl, htaken⟩ := ih
    exact ⟨rfl, .plain (by decide) (.plain (isPlain_of_isNameChar hname) htaken)⟩
  | case3 => exact ⟨rfl, .nil⟩
  | case4 c cs hinner hname taken rest hrun ih =>
    rw [hrun] at ih
    obtain ⟨rfl, htaken⟩ := ih
    exact ⟨rfl, .plain (isPlain_of_isNameChar hname) htaken⟩
  | case5 => exact ⟨rfl, .nil⟩

theorem takesQuoted_dashedName? (cs : List Char) : TakesQuoted cs (dashedName? cs) := by
  cases cs with
  | nil => exact takesQuoted_none _
  | cons c cs =>
    rw [dashedName?]
    split
    next hstart =>
      obtain ⟨hcs, hrun⟩ := dashedRun_eq cs
      have hname := takesQuoted_some (.plain (isPlain_of_isNameStart hstart) hrun)
        (dashedRun cs).2
      rwa [List.cons_append, ← hcs] at hname
    next => exact takesQuoted_none _

theorem pathRun_eq (inNumber : Bool) (cs : List Char) :
    cs = (pathRun inNumber cs).1 ++ (pathRun inNumber cs).2 := by
  fun_induction pathRun inNumber cs with
  | case1 => rfl
  | case2 inNumber c cs hstart taken rest hrun ih =>
    rw [hrun] at ih
    rw [ih]
    rfl
  | case3 inNumber c cs hstart hdigit taken rest hrun ih =>
    rw [hrun] at ih
    rw [ih]
    rfl
  | case4 => rfl
  | case5 inNumber c cs hinner hgoes taken rest hrun ih =>
    rw [hrun] at ih
    rw [ih]
    rfl
  | case6 => rfl

theorem takesQuoted_path? (cs : List Char) : TakesQuoted cs (path? cs) := by
  cases cs with
  | nil => exact takesQuoted_none _
  | cons c cs =>
    rw [path?]
    split
    next hstart =>
      have hrun : WellQuoted (pathRun false cs).1 := by
        refine wellQuoted_of_isPlain fun d hd => ?_
        rcases mem_pathRun false cs d hd with hname | hdot
        · exact isPlain_of_isNameChar hname
        · rw [hdot]
          decide
      have hpath := takesQuoted_some (.plain (isPlain_of_isNameStart hstart) hrun)
        (pathRun false cs).2
      rwa [List.cons_append, ← pathRun_eq] at hpath
    next => exact takesQuoted_none _

theorem takesQuoted_digits? (cs : List Char) : TakesQuoted cs (digits? cs) := by
  unfold digits?
  split
  next => exact takesQuoted_none _
  next =>
    exact takesQuoted_run (fun _ => isPlain_of_isDigit) cs

theorem takesQuoted_signedDigits? (cs : List Char) : TakesQuoted cs (signedDigits? cs) := by
  unfold signedDigits?
  split
  next => exact (takesQuoted_digits? _).cons (by decide)
  next => exact takesQuoted_digits? _

theorem takesQuoted_int? (cs : List Char) : TakesQuoted cs (int? cs) :=
  (takesQuoted_signedDigits? cs).wholeWord

theorem takesQuoted_float? (cs : List Char) : TakesQuoted cs (float? cs) := by
  refine TakesQuoted.wholeWord fun taken rest h => ?_
  obtain ⟨⟨whole, r⟩, hwhole, hfraction⟩ := Option.bind_eq_some_iff.mp h
  obtain ⟨rfl, hquoted⟩ := takesQuoted_signedDigits? cs whole r hwhole
  dsimp only at hfraction
  split at hfraction
  next r =>
    obtain ⟨⟨ds, left⟩, hds, heq⟩ := Option.map_eq_some_iff.mp hfraction
    cases heq
    obtain ⟨rfl, hdigits⟩ := takesQuoted_digits? r ds left hds
    refine ⟨?_, hquoted.append (.plain (by decide) hdigits)⟩
    rw [List.append_assoc, List.cons_append]
  next => cases hfraction

theorem takesQuoted_word? {words : List String}
    (hwords : ∀ w ∈ words, w.toList.all isNameChar = true) (cs : List Char) :
    TakesQuoted cs (word? words cs) := by
  intro taken rest h
  obtain ⟨w, hw, rfl, hcs, -⟩ := word?_eq_some h
  refine ⟨hcs, wellQuoted_of_isPlain fun c hc => ?_⟩
  exact isPlain_of_isNameChar (List.all_eq_true.mp (hwords w hw) c hc)

theorem takesQuoted_boolean? (cs : List Char) : TakesQuoted cs (boolean? cs) :=
  takesQuoted_word? (by decide) cs

theorem takesQuoted_null? (cs : List Char) : TakesQuoted cs (null? cs) :=
  takesQuoted_word? (by decide) cs

/-! ## Strings -/

/-- The inside of a string goes up to a quote, a lone backslash, or the end. -/
theorem quotedRun_eq (q : Char) (cs : List Char) :
    cs = (quotedRun q cs).1 ++ (quotedRun q cs).2 ∧ Inside q (quotedRun q cs).1 := by
  fun_induction quotedRun q cs with
  | case1 => exact ⟨rfl, .nil⟩
  | case2 c cs taken rest hrun ih =>
    rw [hrun] at ih
    obtain ⟨rfl, htaken⟩ := ih
    exact ⟨rfl, .escape htaken⟩
  | case3 => exact ⟨rfl, .nil⟩
  | case4 c cs hinner hc taken rest hrun ih =>
    rw [hrun] at ih
    obtain ⟨rfl, htaken⟩ := ih
    rw [not_or] at hc
    exact ⟨rfl, .char hc.1 hc.2 htaken⟩

theorem stringIn?_eq_some {q : Char} {cs inside rest : List Char}
    (h : stringIn? q cs = some (inside, rest)) :
    cs = q :: (inside ++ q :: rest) ∧ Inside q inside := by
  cases cs with
  | nil => cases h
  | cons c cs =>
    rw [stringIn?] at h
    split at h
    next hc =>
      obtain ⟨hcs, hinside⟩ := quotedRun_eq q cs
      split at h
      next d r hrun =>
        rw [hrun] at hcs hinside
        split at h
        next hd =>
          cases h
          exact ⟨by rw [hc, ← hd, ← hcs], hinside⟩
        next => cases h
      next => cases h
    next => cases h

/-- The first quote without a backslash is the one that closes the string. -/
theorem quotedRun_inside {q : Char} (hq : q = '"' ∨ q = '\'') {inside : List Char}
    (h : Inside q inside) (rest : List Char) :
    quotedRun q (inside ++ q :: rest) = (inside, q :: rest) := by
  induction h with
  | nil =>
    rw [List.nil_append, quotedRun, if_pos (Or.inl rfl)]
    intro _ _ heq
    rcases hq with rfl | rfl <;> exact absurd heq (by decide)
  | escape h ih => rw [List.cons_append, List.cons_append, quotedRun, ih]
  | char hquote hslash h ih =>
    rw [List.cons_append, quotedRun, if_neg (not_or.mpr ⟨hquote, hslash⟩), ih]
    exact fun _ _ heq => absurd heq hslash

theorem stringIn?_inside {q : Char} (hq : q = '"' ∨ q = '\'') {inside : List Char}
    (h : Inside q inside) (rest : List Char) :
    stringIn? q (q :: (inside ++ q :: rest)) = some (inside, rest) := by
  rw [stringIn?, if_pos rfl, quotedRun_inside hq h]
  exact if_pos rfl

/-- A string that is not closed is not closed by text without quotes. -/
theorem stopsBefore_stringIn? {q : Char} (hq : q = '"' ∨ q = '\'') {rest : List Char}
    (hrest : q ∉ rest) : StopsBefore rest (stringIn? q) := by
  intro cs
  cases hcs : stringIn? q cs with
  | some s =>
    obtain ⟨inside, left⟩ := s
    obtain ⟨rfl, hinside⟩ := stringIn?_eq_some hcs
    rw [List.cons_append, List.append_assoc, List.cons_append]
    exact stringIn?_inside hq hinside (left ++ rest)
  | none =>
    cases hlong : stringIn? q (cs ++ rest) with
    | none => rfl
    | some s =>
      obtain ⟨inside, left⟩ := s
      obtain ⟨heq, hinside⟩ := stringIn?_eq_some hlong
      -- the quote that closes the string is one of the text in front
      rcases List.append_eq_append_iff.mp (heq.trans (List.cons_append ..).symm) with
        ⟨as, -, hquote⟩ | ⟨bs, rfl, hquote⟩
      · exact absurd (hquote ▸ List.mem_append_right as (List.mem_cons_self ..)) hrest
      · cases bs with
        | nil =>
          have hquote : q :: left = rest := hquote
          exact absurd (hquote ▸ List.mem_cons_self ..) hrest
        | cons b bs =>
          cases hquote
          rw [List.cons_append, stringIn?_inside hq hinside bs] at hcs
          cases hcs

theorem stopsBefore_string? {rest : List Char} (h : ∀ c ∈ rest, isGap c = true) :
    StopsBefore rest string? := by
  have hquote : ∀ q, isGap q = false → q ∉ rest := by
    intro q hq hmem
    rw [h q hmem] at hq
    cases hq
  intro cs
  rw [string?, string?, stopsBefore_stringIn? (Or.inl rfl) (hquote '"' rfl)]
  cases stringIn? '"' cs with
  | some s => rfl
  | none =>
    show (stringIn? '\'' (cs ++ rest)).map _ = ((stringIn? '\'' cs).map _).map _
    rw [stopsBefore_stringIn? (Or.inr rfl) (hquote '\'' rfl)]
    cases stringIn? '\'' cs <;> rfl

theorem wellQuoted_literal {q : Char} (hq : q = '"' ∨ q = '\'') {inside : List Char}
    (h : Inside q inside) : WellQuoted (q :: inside ++ [q]) :=
  .string hq h .nil

theorem takesQuoted_string? (cs : List Char) : TakesQuoted cs (string? cs) := by
  unfold string?
  split
  next inside rest hdouble =>
    obtain ⟨rfl, hinside⟩ := stringIn?_eq_some hdouble
    have hsplit := takesQuoted_some (wellQuoted_literal (Or.inl rfl) hinside) rest
    rwa [List.append_assoc, List.singleton_append] at hsplit
  next =>
    intro taken rest h
    obtain ⟨⟨inside, r⟩, hsingle, heq⟩ := Option.map_eq_some_iff.mp h
    cases heq
    obtain ⟨rfl, hinside⟩ := stringIn?_eq_some hsingle
    refine ⟨?_, wellQuoted_literal (Or.inr rfl) hinside⟩
    rw [List.append_assoc, List.singleton_append]
    rfl

/-! ## Texts as strings -/

/-- The inside of a string in the quotes `q` that means a text. -/
def escapedIn (q : Char) (text : List Char) : List Char :=
  text.flatMap fun c => if c = q ∨ c = '\\' then ['\\', c] else [c]

/-- A text as a string literal in the quotes `q`, with a backslash before each such quote and each
backslash. -/
def quotedIn (q : Char) (text : List Char) : List Char :=
  q :: escapedIn q text ++ [q]

/-- A text as a string literal in the quotes `q`, in template source. -/
def literal (q : Char) (text : String) : String :=
  String.ofList (quotedIn q text.toList)

@[simp] theorem toList_literal (q : Char) (text : String) :
    (literal q text).toList = quotedIn q text.toList :=
  String.toList_ofList

theorem escapedIn_cons (q c : Char) (cs : List Char) :
    escapedIn q (c :: cs) = (if c = q ∨ c = '\\' then ['\\', c] else [c]) ++ escapedIn q cs :=
  rfl

theorem inside_escapedIn (q : Char) (text : List Char) : Inside q (escapedIn q text) := by
  induction text with
  | nil => exact .nil
  | cons c cs ih =>
    rw [escapedIn_cons]
    by_cases hc : c = q ∨ c = '\\'
    · rw [if_pos hc]
      exact .escape ih
    · rw [if_neg hc]
      exact .char (fun h => hc (Or.inl h)) (fun h => hc (Or.inr h)) ih

section Quotes

variable {q : Char} (hq : q = '"' ∨ q = '\'') (text : List Char)
include hq

/-- What begins with a single quote is no string in double quotes. -/
theorem string?_inside {inside : List Char} (h : Inside q inside) (rest : List Char) :
    string? (q :: (inside ++ q :: rest)) = some (q :: inside ++ [q], rest) := by
  rcases hq with rfl | rfl
  · rw [string?, stringIn?_inside (Or.inl rfl) h]
  · have hdouble : stringIn? '"' ('\'' :: (inside ++ '\'' :: rest)) = none := by
      rw [stringIn?]
      exact if_neg (by decide)
    rw [string?, hdouble, stringIn?_inside (Or.inr rfl) h]
    rfl

theorem unescape_escapedIn : unescape (escapedIn q text) = text := by
  induction text with
  | nil => rfl
  | cons c cs ih =>
    rw [escapedIn_cons]
    by_cases hc : c = q ∨ c = '\\'
    · -- neither a quote nor a backslash is a letter that means something else
      rw [if_pos hc, List.cons_append, List.singleton_append, unescape, ih]
      rcases hc with rfl | rfl
      · rcases hq with rfl | rfl <;> rfl
      · rfl
    · rw [if_neg hc, List.singleton_append, unescape, ih]
      intro _ _ h
      exact absurd (Or.inr h) hc

/-- A string literal means the text that it was made from. -/
theorem meaning_quotedIn : meaning (quotedIn q text) = text := by
  have hdrop : (quotedIn q text).drop 1 = escapedIn q text ++ [q] := rfl
  rw [meaning, hdrop, List.dropLast_concat, unescape_escapedIn hq]

end Quotes

end TagTemplate.Lexeme
