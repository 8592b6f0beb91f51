import TagTemplate.Proofs.Expression.Edges
import TagTemplate.Proofs.Expression.Grammar

/-!
# Lexemes on their own

What a class of lexemes splits off the front of a text is such a lexeme on its own, whatever stood
behind it, and so it is split off again in front of any text that ends every lexeme. For a path this
says too that its first segment is no word of the language, because the words were tried before it.

> `IsLiteral.reads`: a lexeme that was read as an expression of some kind is read as that expression
> in front of every delimited text.
> `IsNamed.reads`: a key is read as that key.
-/

namespace TagTemplate

namespace Lexeme

variable {cs taken left rest : List Char}

/-! ## Numbers -/

theorem digits?_append {ds : List Char} (hne : ds ≠ []) (hdigits : ∀ d ∈ ds, d.isDigit = true)
    (hrest : ∀ c ∈ rest.head?, c.isDigit = false) : digits? (ds ++ rest) = some (ds, rest) := by
  have hall : ds.takeWhile Char.isDigit = ds ∧ ds.dropWhile Char.isDigit = [] := by
    constructor
    · rw [← List.append_nil ds, List.takeWhile_append_of_pos hdigits, List.takeWhile_nil]
    · rw [← List.append_nil ds, List.dropWhile_append_of_pos hdigits, List.dropWhile_nil]
  obtain ⟨htake, hdrop⟩ := takeWhile_append hrest ds
  rw [hall.1] at htake
  rw [hall.2, List.nil_append] at hdrop
  obtain ⟨d, r, rfl⟩ := List.exists_cons_of_ne_nil hne
  unfold digits?
  rw [htake, hdrop]

/-- Digits are read with a minus in front of them and without. -/
theorem signedDigits?_append {ds : List Char} (hne : ds ≠ [])
    (hdigits : ∀ d ∈ ds, d.isDigit = true) (hrest : ∀ c ∈ rest.head?, c.isDigit = false)
    (htaken : taken = ds ∨ taken = '-' :: ds) :
    signedDigits? (taken ++ rest) = some (taken, rest) := by
  have hsplit := digits?_append hne hdigits hrest
  rcases htaken with rfl | rfl
  · obtain ⟨d, r, rfl⟩ := List.exists_cons_of_ne_nil hne
    have hminus : d ≠ '-' := by
      rintro rfl
      exact absurd (hdigits '-' (List.mem_cons_self ..)) (by decide)
    rw [List.cons_append, signedDigits?_of_ne hminus]
    exact hsplit
  · show (digits? (ds ++ rest)).map _ = _
    rw [hsplit]
    rfl

theorem int?_taken (h : int? cs = some (taken, left)) : int? taken = some (taken, []) := by
  obtain ⟨ds, htaken, hne, hdigits⟩ := signedDigits?_eq_some (wholeWord_eq_some_iff.mp h).1
  have hsplit : signedDigits? (taken ++ []) = some (taken, []) :=
    signedDigits?_append hne hdigits (fun _ hc => by cases hc) htaken
  rw [List.append_nil] at hsplit
  exact wholeWord_eq_some_iff.mpr ⟨hsplit, rfl⟩

theorem float?_taken (h : float? cs = some (taken, left)) : float? taken = some (taken, []) := by
  obtain ⟨⟨whole, r⟩, hwhole, hfraction⟩ :=
    Option.bind_eq_some_iff.mp (wholeWord_eq_some_iff.mp h).1
  dsimp only at hfraction
  split at hfraction
  next r =>
    obtain ⟨⟨fs, r'⟩, hfs, heq⟩ := Option.map_eq_some_iff.mp hfraction
    cases heq
    obtain ⟨ds, hds, hne, hdigits⟩ := signedDigits?_eq_some hwhole
    obtain ⟨hne', hdigits'⟩ := digits?_eq_some hfs
    have hfront : signedDigits? (whole ++ '.' :: fs) = some (whole, '.' :: fs) :=
      signedDigits?_append hne hdigits (fun c hc => by cases hc; rfl) hds
    have hback : digits? (fs ++ []) = some (fs, []) :=
      digits?_append hne' hdigits' fun _ hc => by cases hc
    rw [List.append_nil] at hback
    refine wholeWord_eq_some_iff.mpr ⟨?_, rfl⟩
    rw [hfront]
    show (digits? fs).map _ = _
    rw [hback]
    rfl
  next => cases hfraction

/-! ## Words and names -/

theorem boolean?_taken (h : boolean? cs = some (taken, left)) :
    boolean? taken = some (taken, []) := by
  obtain ⟨w, hw, rfl, -, -⟩ := word?_eq_some h
  have hall : ∀ w ∈ ["true", "false", "True", "False"],
      boolean? w.toList = some (w.toList, []) := by decide
  exact hall w hw

theorem null?_taken (h : null? cs = some (taken, left)) : null? taken = some (taken, []) := by
  obtain ⟨w, hw, rfl, -, -⟩ := word?_eq_some h
  have hall : ∀ w ∈ ["none", "None", "null"], null? w.toList = some (w.toList, []) := by decide
  exact hall w hw

theorem name?_taken (h : name? cs = some (taken, left)) : name? taken = some (taken, []) := by
  cases cs with
  | nil => cases h
  | cons c cs =>
    rw [name?] at h
    split at h
    next hstart =>
      cases h
      exact name?_of_isNameChar hstart fun d hd => List.all_eq_true.mp List.all_takeWhile d hd
    next => cases h

theorem dashedRun_taken (cs : List Char) :
    dashedRun (dashedRun cs).1 = ((dashedRun cs).1, []) := by
  fun_induction dashedRun cs with
  | case1 => rfl
  | case2 c cs hc taken left hrun ih =>
    rw [hrun] at ih
    rw [dashedRun, if_pos hc, ih]
  | case3 => rfl
  | case4 c cs hinner hc taken left hrun ih =>
    have hminus : c ≠ '-' := by
      rintro rfl
      exact absurd hc (by decide)
    rw [hrun] at ih
    rw [dashedRun_cons hminus, if_pos hc, ih]
  | case5 => rfl

theorem dashedName?_taken (h : dashedName? cs = some (taken, left)) :
    dashedName? taken = some (taken, []) := by
  obtain ⟨c, r, rfl, hstart⟩ := head_of_dashedName? h
  rw [dashedName?_of_isNameStart hstart] at h
  cases h
  rw [dashedName?_of_isNameStart hstart, dashedRun_taken]

/-! ## Paths -/

/-- A path takes the whole run of name characters that it begins with. -/
theorem takeWhile_pathRun (cs : List Char) :
    (pathRun false cs).1.takeWhile isNameChar = cs.takeWhile isNameChar := by
  induction cs with
  | nil => rfl
  | cons c cs ih =>
    by_cases hdot : c = '.'
    · -- a dot ends the run, whether a segment follows or not
      subst hdot
      have hrun : (pathRun false ('.' :: cs)).1.takeWhile isNameChar = [] := by
        cases cs with
        | nil => rfl
        | cons d cs =>
          rw [pathRun]
          split
          next => rfl
          next => split <;> rfl
      rw [hrun]
      rfl
    · rw [pathRun_cons hdot, if_neg Bool.false_ne_true]
      by_cases hc : isNameChar c = true
      · rw [if_pos hc, List.takeWhile_cons_of_pos hc, List.takeWhile_cons_of_pos hc, ih]
      · rw [if_neg hc, List.takeWhile_cons_of_neg hc, List.takeWhile_nil]

/-- Where the run of name characters is a word of the language, this word stands there. -/
theorem isSome_word {w : String} (hw : w ∈ reservedWords) (h : cs.takeWhile isNameChar = w.toList) :
    (boolean? cs).isSome = true ∨ (null? cs).isSome = true := by
  have hsplit : cs = w.toList ++ cs.dropWhile isNameChar := by
    rw [← h, List.takeWhile_append_dropWhile]
  have hend := endsWord_dropWhile cs
  generalize cs.dropWhile isNameChar = left at hsplit hend
  have hword : wholeWord (some (w.toList, left)) = some (w.toList, left) :=
    wholeWord_eq_some_iff.mpr ⟨rfl, hend⟩
  have hstands : boolean? (w.toList ++ left) = wholeWord (some (w.toList, left)) ∨
      null? (w.toList ++ left) = wholeWord (some (w.toList, left)) := by
    simp only [reservedWords, List.mem_cons, List.not_mem_nil, or_false] at hw
    rcases hw with rfl | rfl | rfl | rfl | rfl | rfl | rfl
    · exact Or.inl rfl
    · exact Or.inl rfl
    · exact Or.inl rfl
    · exact Or.inl rfl
    · exact Or.inr rfl
    · exact Or.inr rfl
    · exact Or.inr rfl
  rw [hsplit]
  rcases hstands with hbool | hnull
  · exact Or.inl (by rw [hbool, hword]; rfl)
  · exact Or.inr (by rw [hnull, hword]; rfl)

/-- The first segment of a path is no word of the language, if none was found in its place. -/
theorem firstSegment_of_path? (hbool : boolean? cs = none) (hnull : null? cs = none)
    (h : path? cs = some (taken, left)) :
    ∀ w ∈ reservedWords, taken.takeWhile (· != '.') ≠ w.toList := by
  intro w hw hsegment
  have hrun : cs.takeWhile isNameChar = taken.takeWhile (· != '.') := by
    rw [← takeWhile_path (mem_path? (path?_taken h))]
    obtain ⟨c, r, rfl, hstart⟩ := head_of_path? h
    rw [path?, if_pos hstart] at h
    cases h
    have hname := isNameChar_of_isNameStart hstart
    rw [List.takeWhile_cons_of_pos hname, List.takeWhile_cons_of_pos hname, takeWhile_pathRun]
  rcases isSome_word hw (hrun.trans hsegment) with hsome | hsome
  · rw [hbool] at hsome
    cases hsome
  · rw [hnull] at hsome
    cases hsome

end Lexeme

open Reader Grammar

variable {cs taken left rest : List Char} {inner : Reader Expr}

/-! ## Lexemes that are read -/

/-- A lexeme is read in front of every delimited text as the expression that it was read as. -/
theorem Lexeme.IsLiteral.reads {kind : Expr.Kind} (h : IsLiteral cs taken left kind)
    (hrest : Delimited rest) :
    Reads (primary inner) (taken ++ rest) (IsLeaf kind taken rest) := by
  cases h with
  | float h => exact reads_primary_float (float?_taken h) hrest
  | int h => exact reads_primary_int (int?_taken h) hrest
  | bool h => exact reads_primary_bool (boolean?_taken h) hrest
  | null h => exact reads_primary_null (null?_taken h) hrest
  | path hbool hnull h =>
    exact reads_primary_path (path?_taken h) (firstSegment_of_path? hbool hnull h) hrest

theorem Lexeme.IsLiteral.noGap {kind : Expr.Kind} (h : IsLiteral cs taken left kind) :
    ∀ c ∈ taken, isGap c = false := by
  cases h with
  | float h => exact noGap_of_float? h
  | int h => exact noGap_of_int? h
  | bool h =>
    obtain ⟨w, hw, rfl, -⟩ := word?_eq_some h
    exact noGap_of_word (List.mem_append_left _ hw)
  | null h =>
    obtain ⟨w, hw, rfl, -⟩ := word?_eq_some h
    exact noGap_of_word (List.mem_append_right ["true", "false", "True", "False"] hw)
  | path _ _ h => exact noGap_of_path? (path?_taken h)

/-- A lexeme in front of no equals sign is no key, even if it looks like one. -/
theorem Lexeme.IsLiteral.noKey {kind : Expr.Kind} (h : IsLiteral cs taken left kind)
    (hrest : Delimited rest) (hequals : ∀ s, afterGap rest ≠ '=' :: s) : NoKey (taken ++ rest) := by
  have hnumber : (∃ c r, taken = c :: r ∧ (c = '-' ∨ c.isDigit = true)) → NoKey (taken ++ rest) := by
    intro ⟨c, r, htaken, hc⟩
    have hne := ne_of_number hc
    rw [htaken]
    exact Or.inl (fails_key (hne _ (by decide)) (hne _ (by decide)) (isNameStart_of_number hc) _)
  have hword : ∀ w ∈ reservedWords, taken = w.toList → NoKey (taken ++ rest) := by
    intro w hw htaken
    obtain ⟨c, r, hhead, hc⟩ := head_of_word hw
    have hall := List.all_eq_true.mp (isNameChar_reservedWords w hw)
    rw [htaken]
    exact Or.inr (reads_key_name hhead hc (fun d hd => Or.inl (hall d hd)) hrest hequals)
  cases h with
  | float h => exact hnumber (head_of_float? (float?_taken h))
  | int h => exact hnumber (head_of_signedDigits? (wholeWord_eq_some_iff.mp (int?_taken h)).1)
  | bool h =>
    obtain ⟨w, hw, htaken, -⟩ := word?_eq_some h
    exact hword w (List.mem_append_left _ hw) htaken
  | null h =>
    obtain ⟨w, hw, htaken, -⟩ := word?_eq_some h
    exact hword w (List.mem_append_right ["true", "false", "True", "False"] hw) htaken
  | path _ _ h =>
    have halone := path?_taken h
    obtain ⟨c, r, htaken, hc⟩ := head_of_path? halone
    exact Or.inr (reads_key_name htaken hc (mem_path? halone) hrest hequals)

/-- A string is read as what it means, whatever follows. -/
theorem Lexeme.reads_of_string? (h : string? cs = some (taken, left)) :
    Reads (primary inner) (taken ++ rest) (IsLeaf .text (meaning taken) rest) := by
  obtain ⟨q, inside, hq, hinside, rfl⟩ := string?_eq_some h
  exact reads_primary_string hq hinside

/-- A name, given as a name or as a string, is read as the text that it was read as. -/
theorem Grammar.IsNamed.reads {rule : Rule} {split : List Char → Lexeme.Split} {name : String}
    (h : IsNamed split cs taken left name)
    (hsplit : split cs = some (taken, left) →
      (∃ c r, taken = c :: r ∧ Lexeme.isNameStart c = true) ∧
        split (taken ++ rest) = some (taken, rest)) :
    Reads (nameToken (stringOr (lexical rule split))) (taken ++ rest) fun token r =>
      token.text = name ∧ r = rest := by
  rcases h with ⟨hstring, rfl⟩ | ⟨hname, rfl⟩
  · obtain ⟨q, inside, hq, hinside, rfl⟩ := Lexeme.string?_eq_some hstring
    exact reads_nameToken (reads_stringOr hq _ hinside)
  · obtain ⟨hstart, halone⟩ := hsplit hname
    exact reads_nameToken (reads_stringOr_name hstart halone)

theorem Grammar.reads_key {name : String} (h : IsNamed Lexeme.dashedName? cs taken left name)
    (hrest : Lexeme.Delimited rest) :
    Reads key (taken ++ rest) fun token r => token.text = name ∧ r = rest := by
  refine Reads.named (h.reads fun hname => ?_)
  have halone := Lexeme.dashedName?_taken hname
  exact ⟨Lexeme.head_of_dashedName? halone, (Lexeme.stopsBefore_dashedName? hrest).eq_some halone⟩

theorem Grammar.reads_dictKey {name : String} (h : IsNamed Lexeme.name? cs taken left name)
    (hrest : Lexeme.Delimited rest) :
    Reads dictKey (taken ++ rest) fun token r => token.text = name ∧ r = rest := by
  refine Reads.named (h.reads fun hname => ?_)
  have halone := Lexeme.name?_taken hname
  exact ⟨Lexeme.head_of_name? halone, (Lexeme.stopsBefore_name? hrest).eq_some halone⟩

end TagTemplate
