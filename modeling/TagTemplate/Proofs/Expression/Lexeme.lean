import TagTemplate.Expression.Lexeme

/-!
# Lexemes in front of other text

A lexeme is split off the front of a text as if it stood alone, provided that what follows cannot
belong to it. Everything that ever follows a lexeme in a printed argument list begins with one of a
few characters (`Delimited`), none of which goes on any lexeme, and so does every gap.

`StopsBefore` says that a class of lexemes is not changed by what follows, whether a text begins with
such a lexeme or not; there is a lemma for each class. Strings need more than a delimiter to stop,
since a quote in the text behind could close a string that is not closed. Words of the language are
told from names by the whole run of name characters that a text begins with (`word?_eq_none`).
-/

namespace TagTemplate.Lexeme

/-- The characters that can follow a lexeme. -/
def delimiters : List Char :=
  [' ', '\t', '\r', '\n', ',', '=', ':', '+', '(', ')', ']', '\x7d', '|']

/-- The text is empty or begins with a character that ends every lexeme. -/
def Delimited (cs : List Char) : Prop :=
  ∀ c ∈ cs.head?, c ∈ delimiters

theorem delimited_cons {c : Char} (h : c ∈ delimiters) (cs : List Char) : Delimited (c :: cs) :=
  fun _ hd => Option.some.inj hd ▸ h

/-! ## Text between lexemes -/

/-- The text is a gap. -/
def Gap (cs : List Char) : Prop :=
  ∀ c ∈ cs, isGap c = true

/-- The text is `middle` with gaps around it. -/
def Around (middle cs : List Char) : Prop :=
  ∃ before after, Gap before ∧ Gap after ∧ cs = before ++ (middle ++ after)

/-- The text is a gap, or a comma with gaps around it. -/
def MayHaveComma (cs : List Char) : Prop :=
  Gap cs ∨ Around [','] cs

variable {as bs middle : List Char}

theorem gap_nil : Gap [] :=
  fun _ h => absurd h List.not_mem_nil

theorem Gap.append (ha : Gap as) (hb : Gap bs) : Gap (as ++ bs) :=
  List.forall_mem_append.mpr ⟨ha, hb⟩

theorem gap_takeWhile (cs : List Char) : Gap (cs.takeWhile isGap) :=
  fun c hc => List.all_eq_true.mp List.all_takeWhile c hc

theorem Around.gap_append (h : Around middle bs) (ha : Gap as) : Around middle (as ++ bs) := by
  obtain ⟨before, after, hbefore, hafter, rfl⟩ := h
  exact ⟨as ++ before, after, ha.append hbefore, hafter, (List.append_assoc ..).symm⟩

theorem Around.append_gap (h : Around middle as) (hb : Gap bs) : Around middle (as ++ bs) := by
  obtain ⟨before, after, hbefore, hafter, rfl⟩ := h
  exact ⟨before, after ++ bs, hbefore, hafter.append hb, by simp only [List.append_assoc]⟩

theorem MayHaveComma.append_gap (h : MayHaveComma as) (hb : Gap bs) : MayHaveComma (as ++ bs) :=
  h.imp (fun ha => ha.append hb) fun ha => ha.append_gap hb

variable {rest : List Char}

theorem delimited_of_isGap (h : Gap rest) : Delimited rest := by
  intro c hc
  have hgap := h c (List.mem_of_mem_head? hc)
  simp only [isGap, Bool.or_eq_true, beq_iff_eq] at hgap
  rcases hgap with ((rfl | rfl) | rfl) | rfl <;> decide

/-! ## Splits -/

/-- Nothing that is split off goes into the text behind, nor is there more to split off because of
it. -/
def StopsBefore (rest : List Char) (split : List Char → Split) : Prop :=
  ∀ cs, split (cs ++ rest) = (split cs).map fun (taken, left) => (taken, left ++ rest)

theorem StopsBefore.eq_some {split : List Char → Split} (h : StopsBefore rest split)
    {cs taken left : List Char} (hcs : split cs = some (taken, left)) :
    split (cs ++ rest) = some (taken, left ++ rest) := by
  rw [h, hcs]
  rfl

/-- No character of a class without delimiters follows. -/
theorem Delimited.stops (h : Delimited rest) {q : Char → Bool}
    (hq : ∀ c ∈ delimiters, q c = false) : ∀ c ∈ rest.head?, q c = false :=
  fun c hc => hq c (h c hc)

theorem isNameChar_delimiter : ∀ c ∈ delimiters, isNameChar c = false := by
  simp [delimiters, isNameChar]

theorem isDigit_delimiter : ∀ c ∈ delimiters, c.isDigit = false := by
  simp [delimiters]

/-! ## Classes of characters -/

theorem isNameChar_of_isNameStart {c : Char} (h : isNameStart c = true) : isNameChar c = true := by
  simp only [isNameStart, isNameChar, Char.isAlphanum, Bool.or_eq_true] at h ⊢
  rcases h with (h | h) | h
  · exact Or.inl (Or.inl (Or.inl h))
  · exact Or.inl (Or.inr h)
  · exact Or.inr h

theorem isNameChar_of_isDigit {c : Char} (h : c.isDigit = true) : isNameChar c = true := by
  simp [isNameChar, Char.isAlphanum, h]

theorem isGap_of_isNameChar {c : Char} (h : isNameChar c = true) : isGap c = false := by
  rw [Bool.eq_false_iff]
  intro hgap
  simp only [isGap, Bool.or_eq_true, beq_iff_eq] at hgap
  rcases hgap with ((rfl | rfl) | rfl) | rfl <;> exact absurd h (by decide)

/-- Letters by their numbers. -/
theorem isAlpha_iff {c : Char} :
    c.isAlpha = true ↔ (65 ≤ c.toNat ∧ c.toNat ≤ 90) ∨ (97 ≤ c.toNat ∧ c.toNat ≤ 122) := by
  have hupper : c.isUpper = true ↔ 65 ≤ c.toNat ∧ c.toNat ≤ 90 := by
    show decide ('A'.val ≤ c.val ∧ c.val ≤ 'Z'.val) = true ↔ _
    rw [decide_eq_true_eq, UInt32.le_iff_toNat_le, UInt32.le_iff_toNat_le]
    rfl
  have hlower : c.isLower = true ↔ 97 ≤ c.toNat ∧ c.toNat ≤ 122 := by
    show (decide ('a'.val ≤ c.val) && decide (c.val ≤ 'z'.val)) = true ↔ _
    rw [Bool.and_eq_true, decide_eq_true_eq, decide_eq_true_eq, UInt32.le_iff_toNat_le,
      UInt32.le_iff_toNat_le]
    rfl
  show (c.isUpper || c.isLower) = true ↔ _
  rw [Bool.or_eq_true, hupper, hlower]

theorem isDigit_of_isNameStart {c : Char} (h : isNameStart c = true) : c.isDigit = false := by
  simp only [isNameStart, Bool.or_eq_true, beq_iff_eq] at h
  rcases h with (h | rfl) | rfl
  · rw [isAlpha_iff] at h
    rw [Bool.eq_false_iff]
    intro hdigit
    simp only [Char.isDigit, Bool.and_eq_true, decide_eq_true_eq, Char.reduceVal,
      UInt32.le_iff_toNat_le, UInt32.reduceToNat] at hdigit
    have hval : c.val.toNat = c.toNat := rfl
    omega
  · rfl
  · rfl

/-! ## Runs of characters -/

/-- A run ends where it ended before, or where the text behind begins. -/
theorem takeWhile_append {q : Char → Bool} (h : ∀ c ∈ rest.head?, q c = false) (cs : List Char) :
    (cs ++ rest).takeWhile q = cs.takeWhile q ∧
      (cs ++ rest).dropWhile q = cs.dropWhile q ++ rest := by
  induction cs with
  | nil =>
    cases rest with
    | nil => exact ⟨rfl, rfl⟩
    | cons c rest => simp [h c rfl]
  | cons c cs ih =>
    by_cases hc : q c = true
    · simp [hc, ih.1, ih.2]
    · simp [hc]

theorem endsWord_append (h : Delimited rest) (cs : List Char) :
    endsWord (cs ++ rest) = endsWord cs := by
  cases cs with
  | nil =>
    cases rest with
    | nil => rfl
    | cons c rest => simp [endsWord, h.stops isNameChar_delimiter c rfl]
  | cons c cs => rfl

theorem StopsBefore.wholeWord (h : Delimited rest) {split : List Char → Split}
    (hsplit : StopsBefore rest split) : StopsBefore rest fun cs => wholeWord (split cs) := by
  intro cs
  show Lexeme.wholeWord (split (cs ++ rest)) = (Lexeme.wholeWord (split cs)).map _
  rw [hsplit]
  cases split cs with
  | none => rfl
  | some s =>
    simp only [Lexeme.wholeWord, Option.map_some, Option.filter_some, endsWord_append h]
    split <;> rfl

theorem wholeWord_eq_some_iff {s : Split} {taken left : List Char} :
    wholeWord s = some (taken, left) ↔ s = some (taken, left) ∧ endsWord left = true := by
  rw [wholeWord, Option.filter_eq_some_iff]

/-! ## Numbers -/

theorem stopsBefore_digits? (h : Delimited rest) : StopsBefore rest digits? := by
  intro cs
  obtain ⟨htake, hdrop⟩ := takeWhile_append (h.stops isDigit_delimiter) cs
  unfold digits?
  rw [htake, hdrop]
  cases cs.takeWhile Char.isDigit <;> rfl

/-- Numbers begin with a minus or a digit. -/
theorem signedDigits?_eq_none {c : Char} (hminus : c ≠ '-') (hdigit : c.isDigit = false)
    (cs : List Char) : signedDigits? (c :: cs) = none := by
  unfold signedDigits?
  split
  next heq =>
    cases heq
    exact absurd rfl hminus
  next => simp [digits?, hdigit]

theorem signedDigits?_of_ne {c : Char} (hminus : c ≠ '-') (cs : List Char) :
    signedDigits? (c :: cs) = digits? (c :: cs) := by
  unfold signedDigits?
  split
  next heq =>
    cases heq
    exact absurd rfl hminus
  next => rfl

theorem stopsBefore_signedDigits? (h : Delimited rest) : StopsBefore rest signedDigits? := by
  intro cs
  cases cs with
  | nil =>
    cases rest with
    | nil => rfl
    | cons d rest =>
      have hminus : d ≠ '-' := by
        rintro rfl
        exact absurd (h '-' rfl) (by decide)
      exact signedDigits?_eq_none hminus (isDigit_delimiter d (h d rfl)) rest
  | cons c cs =>
    by_cases hminus : c = '-'
    · subst hminus
      show (digits? (cs ++ rest)).map _ = ((digits? cs).map _).map _
      rw [stopsBefore_digits? h]
      cases digits? cs <;> rfl
    · rw [List.cons_append, signedDigits?_of_ne hminus, signedDigits?_of_ne hminus]
      exact stopsBefore_digits? h (c :: cs)

theorem stopsBefore_int? (h : Delimited rest) : StopsBefore rest int? :=
  (stopsBefore_signedDigits? h).wholeWord h

theorem stopsBefore_float? (h : Delimited rest) : StopsBefore rest float? := by
  refine StopsBefore.wholeWord h fun cs => ?_
  rw [stopsBefore_signedDigits? h]
  cases signedDigits? cs with
  | none => rfl
  | some s =>
    obtain ⟨whole, left⟩ := s
    -- a fraction begins with a dot, which ends nothing
    cases left with
    | nil =>
      cases rest with
      | nil => rfl
      | cons d rest =>
        have hdot : d ≠ '.' := by
          rintro rfl
          exact absurd (h '.' rfl) (by decide)
        simp [hdot]
    | cons d left =>
      by_cases hdot : d = '.'
      · subst hdot
        show (digits? (left ++ rest)).map _ = ((digits? left).map _).map _
        rw [stopsBefore_digits? h]
        cases digits? left <;> rfl
      · simp [hdot]

/-- A whole number is not the beginning of a number with a fraction. -/
theorem float?_eq_none_of_int? (h : Delimited rest) {cs : List Char}
    (hcs : int? cs = some (cs, [])) : float? (cs ++ rest) = none := by
  have hdigits := (stopsBefore_signedDigits? h).eq_some (wholeWord_eq_some_iff.mp hcs).1
  unfold float?
  rw [hdigits]
  cases rest with
  | nil => rfl
  | cons c rest =>
    -- a fraction would begin with a dot
    have hc : c ≠ '.' := by
      intro heq
      exact absurd (h c rfl) (heq ▸ by decide)
    simp [wholeWord, hc]

theorem int?_eq_none {c : Char} (hminus : c ≠ '-') (hdigit : c.isDigit = false)
    (cs : List Char) : int? (c :: cs) = none := by
  rw [int?, signedDigits?_eq_none hminus hdigit]
  rfl

theorem float?_eq_none {c : Char} (hminus : c ≠ '-') (hdigit : c.isDigit = false)
    (cs : List Char) : float? (c :: cs) = none := by
  rw [float?, signedDigits?_eq_none hminus hdigit]
  rfl

theorem head_of_signedDigits? {cs : List Char} {s : List Char × List Char}
    (h : signedDigits? cs = some s) : ∃ c r, cs = c :: r ∧ (c = '-' ∨ c.isDigit = true) := by
  cases cs with
  | nil => cases h
  | cons c r =>
    refine ⟨c, r, rfl, ?_⟩
    by_cases hminus : c = '-'
    · exact Or.inl hminus
    · by_cases hdigit : c.isDigit = true
      · exact Or.inr hdigit
      · rw [signedDigits?_eq_none hminus (Bool.eq_false_iff.mpr hdigit)] at h
        cases h

theorem noGap_of_digits? {cs taken left : List Char} (h : digits? cs = some (taken, left)) :
    ∀ c ∈ taken, isGap c = false := by
  unfold digits? at h
  split at h
  next => cases h
  next =>
    cases h
    intro c hc
    have hdigit := List.all_eq_true.mp List.all_takeWhile c hc
    exact isGap_of_isNameChar (isNameChar_of_isDigit hdigit)

theorem noGap_of_signedDigits? {cs taken left : List Char}
    (h : signedDigits? cs = some (taken, left)) : ∀ c ∈ taken, isGap c = false := by
  unfold signedDigits? at h
  split at h
  next =>
    obtain ⟨⟨ds, r⟩, hds, heq⟩ := Option.map_eq_some_iff.mp h
    cases heq
    exact List.forall_mem_cons.mpr ⟨rfl, noGap_of_digits? hds⟩
  next => exact noGap_of_digits? h

theorem noGap_of_int? {cs taken left : List Char} (h : int? cs = some (taken, left)) :
    ∀ c ∈ taken, isGap c = false :=
  noGap_of_signedDigits? (wholeWord_eq_some_iff.mp h).1

theorem noGap_of_float? {cs taken left : List Char} (h : float? cs = some (taken, left)) :
    ∀ c ∈ taken, isGap c = false := by
  obtain ⟨⟨whole, r⟩, hwhole, hfraction⟩ :=
    Option.bind_eq_some_iff.mp (wholeWord_eq_some_iff.mp h).1
  dsimp only at hfraction
  split at hfraction
  next r =>
    obtain ⟨⟨ds, r'⟩, hds, heq⟩ := Option.map_eq_some_iff.mp hfraction
    cases heq
    intro c hc
    rcases List.mem_append.mp hc with hc | hc
    · exact noGap_of_signedDigits? hwhole c hc
    · rcases List.mem_cons.mp hc with rfl | hc
      · rfl
      · exact noGap_of_digits? hds c hc
  next => cases hfraction

theorem digits?_eq_some {cs taken left : List Char} (h : digits? cs = some (taken, left)) :
    taken ≠ [] ∧ ∀ c ∈ taken, c.isDigit = true := by
  unfold digits? at h
  split at h
  next => cases h
  next hne =>
    cases h
    exact ⟨hne, fun c hc => List.all_eq_true.mp List.all_takeWhile c hc⟩

theorem signedDigits?_eq_some {cs taken left : List Char}
    (h : signedDigits? cs = some (taken, left)) :
    ∃ ds, (taken = ds ∨ taken = '-' :: ds) ∧ ds ≠ [] ∧ ∀ c ∈ ds, c.isDigit = true := by
  unfold signedDigits? at h
  split at h
  next =>
    obtain ⟨⟨ds, r⟩, hds, heq⟩ := Option.map_eq_some_iff.mp h
    cases heq
    exact ⟨ds, Or.inr rfl, digits?_eq_some hds⟩
  next => exact ⟨taken, Or.inl rfl, digits?_eq_some h⟩

theorem float?_eq_some {cs taken left : List Char} (h : float? cs = some (taken, left)) :
    ∃ ds fs, (taken = ds ++ '.' :: fs ∨ taken = '-' :: (ds ++ '.' :: fs)) ∧ ds ≠ [] ∧
      (∀ c ∈ ds, c.isDigit = true) ∧ ∀ c ∈ fs, c.isDigit = true := by
  obtain ⟨⟨whole, r⟩, hwhole, hfraction⟩ :=
    Option.bind_eq_some_iff.mp (wholeWord_eq_some_iff.mp h).1
  dsimp only at hfraction
  split at hfraction
  next r =>
    obtain ⟨⟨fs, r'⟩, hfs, heq⟩ := Option.map_eq_some_iff.mp hfraction
    cases heq
    obtain ⟨ds, hds, hne, hdigits⟩ := signedDigits?_eq_some hwhole
    refine ⟨ds, fs, ?_, hne, hdigits, (digits?_eq_some hfs).2⟩
    rcases hds with rfl | rfl
    · exact Or.inl rfl
    · exact Or.inr rfl
  next => cases hfraction

/-- No number begins like a bracket or a string. -/
theorem ne_of_number {c : Char} (h : c = '-' ∨ c.isDigit = true) :
    ∀ d ∈ ['(', '[', '\x7b', '"', '\''], c ≠ d := by
  rintro d hd rfl
  have hall : ∀ d ∈ ['(', '[', '\x7b', '"', '\''], ¬ (d = '-' ∨ d.isDigit = true) := by simp
  exact hall _ hd h

theorem head_of_float? {cs : List Char} {s : List Char × List Char} (h : float? cs = some s) :
    ∃ c r, cs = c :: r ∧ (c = '-' ∨ c.isDigit = true) := by
  obtain ⟨_, hwhole, -⟩ := Option.bind_eq_some_iff.mp (wholeWord_eq_some_iff.mp h).1
  exact head_of_signedDigits? hwhole

/-! ## Names and paths -/

theorem isGap_of_number {c : Char} (h : c = '-' ∨ c.isDigit = true) : isGap c = false := by
  rcases h with rfl | hdigit
  · rfl
  · exact isGap_of_isNameChar (isNameChar_of_isDigit hdigit)

/-- No number begins like a name. -/
theorem isNameStart_of_number {c : Char} (h : c = '-' ∨ c.isDigit = true) :
    isNameStart c = false := by
  rw [Bool.eq_false_iff]
  intro hstart
  rcases h with rfl | hdigit
  · exact absurd hstart (by decide)
  · rw [isDigit_of_isNameStart hstart] at hdigit
    cases hdigit

/-- No name begins like a bracket, a number or a string. -/
theorem ne_of_isNameStart {c : Char} (h : isNameStart c = true) :
    ∀ d ∈ ['(', '[', '\x7b', '-', '"', '\''], c ≠ d := by
  rintro d hd rfl
  have hall : ∀ d ∈ ['(', '[', '\x7b', '-', '"', '\''], isNameStart d = false := by
    simp [isNameStart]
  rw [hall _ hd] at h
  cases h

theorem head_of_name? {cs : List Char} {s : List Char × List Char} (h : name? cs = some s) :
    ∃ c r, cs = c :: r ∧ isNameStart c = true := by
  cases cs with
  | nil => cases h
  | cons c r =>
    rw [name?] at h
    split at h
    next hstart => exact ⟨c, r, rfl, hstart⟩
    next => cases h

/-- A name does not begin with a delimiter. -/
theorem isNameStart_delimiter : ∀ c ∈ delimiters, ¬ isNameStart c = true := by
  intro c hc hstart
  have hname := isNameChar_of_isNameStart hstart
  rw [isNameChar_delimiter c hc] at hname
  cases hname

theorem stopsBefore_name? (h : Delimited rest) : StopsBefore rest name? := by
  intro cs
  cases cs with
  | nil =>
    cases rest with
    | nil => rfl
    | cons d rest => exact if_neg (isNameStart_delimiter d (h d rfl))
  | cons c cs =>
    obtain ⟨htake, hdrop⟩ := takeWhile_append (h.stops isNameChar_delimiter) cs
    rw [List.cons_append, name?, name?, htake, hdrop]
    split <;> rfl

theorem pathRun_cons {c : Char} (hc : c ≠ '.') (inNumber : Bool) (cs : List Char) :
    pathRun inNumber (c :: cs) =
      if (if inNumber then c.isDigit else isNameChar c) then
        (c :: (pathRun inNumber cs).1, (pathRun inNumber cs).2)
      else ([], c :: cs) := by
  rw [pathRun]
  intro _ _ h
  exact absurd h hc

theorem goesOn_of_isDelimiter {c : Char} (h : c ∈ delimiters) (inNumber : Bool) :
    (if inNumber then c.isDigit else isNameChar c) = false := by
  cases inNumber with
  | false => exact isNameChar_delimiter c h
  | true => exact isDigit_delimiter c h

/-- Behind a path no segment goes on, and no further one begins. -/
theorem pathRun_append (h : Delimited rest) (inNumber : Bool) (cs : List Char) :
    pathRun inNumber (cs ++ rest) =
      ((pathRun inNumber cs).1, (pathRun inNumber cs).2 ++ rest) := by
  fun_induction pathRun inNumber cs with
  | case1 inNumber =>
    cases rest with
    | nil => rfl
    | cons c rest =>
      have hc := h c rfl
      have hdot : c ≠ '.' := by
        rintro rfl
        exact absurd hc (by decide)
      rw [List.nil_append, pathRun_cons hdot, goesOn_of_isDelimiter hc]
      rfl
  | case2 inNumber c cs hstart taken left hrun ih =>
    rw [List.cons_append, List.cons_append, pathRun, if_pos hstart, ih, hrun]
  | case3 inNumber c cs hstart hdigit taken left hrun ih =>
    rw [List.cons_append, List.cons_append, pathRun, if_neg hstart, if_pos hdigit, ih, hrun]
  | case4 inNumber c cs hstart hdigit =>
    rw [List.cons_append, List.cons_append, pathRun, if_neg hstart, if_neg hdigit]
  | case5 inNumber c cs hinner hgoes taken left hrun ih =>
    have hdot : c ≠ '.' := by
      rintro rfl
      cases inNumber <;> exact absurd hgoes (by decide)
    rw [List.cons_append, pathRun_cons hdot, if_pos hgoes, ih, hrun]
  | case6 inNumber c cs hinner hgoes =>
    by_cases hdot : c = '.'
    · -- a dot at the end begins no segment, whatever follows
      subst hdot
      cases cs with
      | cons d cs => exact absurd rfl (hinner d cs rfl)
      | nil =>
        cases rest with
        | nil => cases inNumber <;> rfl
        | cons d rest =>
          have hstart := isNameStart_delimiter d (h d rfl)
          have hdigit : ¬ d.isDigit = true := by
            rw [isDigit_delimiter d (h d rfl)]
            exact Bool.false_ne_true
          rw [List.singleton_append, pathRun, if_neg hstart, if_neg hdigit]
    · rw [List.cons_append, pathRun_cons hdot, if_neg hgoes]

theorem stopsBefore_path? (h : Delimited rest) : StopsBefore rest path? := by
  intro cs
  cases cs with
  | nil =>
    cases rest with
    | nil => rfl
    | cons d rest => exact if_neg (isNameStart_delimiter d (h d rfl))
  | cons c cs =>
    rw [List.cons_append, path?, path?, pathRun_append h]
    split <;> rfl

theorem head_of_path? {cs : List Char} {s : List Char × List Char} (h : path? cs = some s) :
    ∃ c r, cs = c :: r ∧ isNameStart c = true := by
  cases cs with
  | nil => cases h
  | cons c r =>
    rw [path?] at h
    split at h
    next hstart => exact ⟨c, r, rfl, hstart⟩
    next => cases h

/-- A path is made of name characters and dots. -/
theorem mem_pathRun (inNumber : Bool) (cs : List Char) :
    ∀ c ∈ (pathRun inNumber cs).1, isNameChar c = true ∨ c = '.' := by
  fun_induction pathRun inNumber cs with
  | case1 => exact fun c hc => absurd hc List.not_mem_nil
  | case2 inNumber c cs hstart taken left hrun ih =>
    rw [hrun] at ih
    intro d hd
    rcases List.mem_cons.mp hd with rfl | hd
    · exact Or.inr rfl
    · rcases List.mem_cons.mp hd with rfl | hd
      · exact Or.inl (isNameChar_of_isNameStart hstart)
      · exact ih d hd
  | case3 inNumber c cs hstart hdigit taken left hrun ih =>
    rw [hrun] at ih
    intro d hd
    rcases List.mem_cons.mp hd with rfl | hd
    · exact Or.inr rfl
    · rcases List.mem_cons.mp hd with rfl | hd
      · exact Or.inl (isNameChar_of_isDigit hdigit)
      · exact ih d hd
  | case4 => exact fun c hc => absurd hc List.not_mem_nil
  | case5 inNumber c cs hinner hgoes taken left hrun ih =>
    rw [hrun] at ih
    refine List.forall_mem_cons.mpr ⟨Or.inl ?_, ih⟩
    cases inNumber with
    | false => exact hgoes
    | true => exact isNameChar_of_isDigit hgoes
  | case6 => exact fun c hc => absurd hc List.not_mem_nil

theorem mem_path? {cs : List Char} (h : path? cs = some (cs, [])) :
    ∀ c ∈ cs, isNameChar c = true ∨ c = '.' := by
  cases cs with
  | nil => cases h
  | cons c cs =>
    rw [path?] at h
    split at h
    next hstart =>
      have hrun : (pathRun false cs).1 = cs := (List.cons.inj (Prod.mk.inj (Option.some.inj h)).1).2
      refine List.forall_mem_cons.mpr ⟨Or.inl (isNameChar_of_isNameStart hstart), ?_⟩
      have hmem := mem_pathRun false cs
      rwa [hrun] at hmem
    next => cases h

theorem name?_of_isNameChar {c : Char} {cs : List Char} (hc : isNameStart c = true)
    (h : ∀ d ∈ cs, isNameChar d = true) : name? (c :: cs) = some (c :: cs, []) := by
  have htake : cs.takeWhile isNameChar = cs := by
    rw [← List.append_nil cs, List.takeWhile_append_of_pos h, List.takeWhile_nil]
  have hdrop : cs.dropWhile isNameChar = [] := by
    rw [← List.append_nil cs, List.dropWhile_append_of_pos h, List.dropWhile_nil]
  rw [name?, if_pos hc, htake, hdrop]

theorem mem_name? {cs : List Char} (h : name? cs = some (cs, [])) :
    ∀ c ∈ cs, isNameChar c = true := by
  cases cs with
  | nil => cases h
  | cons c r =>
    rw [name?] at h
    split at h
    next hstart =>
      have hrun : r.takeWhile isNameChar = r := (List.cons.inj (Prod.mk.inj (Option.some.inj h)).1).2
      refine List.forall_mem_cons.mpr ⟨isNameChar_of_isNameStart hstart, fun d hd => ?_⟩
      rw [← hrun] at hd
      exact List.all_eq_true.mp List.all_takeWhile d hd
    next => cases h

theorem pathRun_of_isNameChar {cs : List Char} (h : ∀ c ∈ cs, isNameChar c = true) :
    pathRun false cs = (cs, []) := by
  induction cs with
  | nil => rfl
  | cons c cs ih =>
    obtain ⟨hc, hcs⟩ := List.forall_mem_cons.mp h
    have hdot : c ≠ '.' := by
      rintro rfl
      exact absurd hc (by decide)
    rw [pathRun_cons hdot, if_neg Bool.false_ne_true, if_pos hc, ih hcs]

/-- A name is a path of one segment. -/
theorem path?_of_name? {cs : List Char} (h : name? cs = some (cs, [])) :
    path? cs = some (cs, []) := by
  have hall := mem_name? h
  obtain ⟨c, r, rfl, hc⟩ := head_of_name? h
  rw [path?, if_pos hc, pathRun_of_isNameChar (List.forall_mem_cons.mp hall).2]

/-! ## Words of the language -/

/-- The words that are no variables. -/
def reservedWords : List String :=
  ["true", "false", "True", "False", "none", "None", "null"]

/-- A word that is split off is one of the words, and stands there as a whole. -/
theorem word?_eq_some {words : List String} {cs taken left : List Char}
    (h : word? words cs = some (taken, left)) :
    ∃ w ∈ words, taken = w.toList ∧ cs = w.toList ++ left ∧ endsWord left = true := by
  obtain ⟨hword, hend⟩ := wholeWord_eq_some_iff.mp h
  obtain ⟨w, hw, hsplit⟩ := List.exists_of_findSome?_eq_some hword
  split at hsplit
  next hprefix =>
    cases hsplit
    obtain ⟨r, rfl⟩ := List.isPrefixOf_iff_prefix.mp hprefix
    exact ⟨w, hw, rfl, by rw [List.drop_left], hend⟩
  next => cases hsplit

/-- The run of name characters at the beginning decides whether a word stands there. -/
theorem word?_eq_none {words : List String} (hwords : ∀ w ∈ words, w.toList.all isNameChar = true)
    {cs : List Char} (h : ∀ w ∈ words, cs.takeWhile isNameChar ≠ w.toList) :
    word? words cs = none := by
  cases hword : word? words cs with
  | none => rfl
  | some s =>
    obtain ⟨taken, left⟩ := s
    obtain ⟨w, hw, -, rfl, hend⟩ := word?_eq_some hword
    -- the word ends where the run of name characters ends
    refine absurd ?_ (h w hw)
    have hall := List.all_eq_true.mp (hwords w hw)
    rw [List.takeWhile_append_of_pos hall]
    have hleft : left.takeWhile isNameChar = [] := by
      cases left with
      | nil => rfl
      | cons c left =>
        have hc : isNameChar c = false := by simpa [endsWord] using hend
        rw [List.takeWhile_cons_of_neg (by rw [hc]; exact Bool.false_ne_true)]
    rw [hleft, List.append_nil]

/-- In front of delimited text the same words stand at the beginning. -/
theorem isPrefixOf_append (h : Delimited rest) {w : List Char} (hw : w.all isNameChar = true)
    (cs : List Char) : w.isPrefixOf (cs ++ rest) = w.isPrefixOf cs := by
  induction w generalizing cs with
  | nil => rfl
  | cons c w ih =>
    rw [List.all_cons, Bool.and_eq_true] at hw
    cases cs with
    | cons d cs => rw [List.cons_append, List.isPrefixOf, List.isPrefixOf, ih hw.2]
    | nil =>
      cases rest with
      | nil => rfl
      | cons d rest =>
        -- the word would have to go on with a delimiter
        have hne : c ≠ d := by
          rintro rfl
          have hname := isNameChar_delimiter c (h c rfl)
          rw [hw.1] at hname
          cases hname
        show (c == d && w.isPrefixOf rest) = false
        rw [beq_eq_false_iff_ne.mpr hne, Bool.false_and]

theorem stopsBefore_word? (h : Delimited rest) {words : List String}
    (hwords : ∀ w ∈ words, w.toList.all isNameChar = true) : StopsBefore rest (word? words) := by
  refine StopsBefore.wholeWord h fun cs => ?_
  induction words with
  | nil => rfl
  | cons w words ih =>
    obtain ⟨hw, hmore⟩ := List.forall_mem_cons.mp hwords
    rw [List.findSome?_cons, List.findSome?_cons, isPrefixOf_append h hw]
    by_cases hprefix : w.toList.isPrefixOf cs = true
    · rw [if_pos hprefix, if_pos hprefix]
      obtain ⟨r, rfl⟩ := List.isPrefixOf_iff_prefix.mp hprefix
      rw [List.append_assoc, List.drop_left, List.drop_left]
      rfl
    · rw [if_neg hprefix, if_neg hprefix]
      exact ih hmore

theorem stopsBefore_boolean? (h : Delimited rest) : StopsBefore rest boolean? :=
  stopsBefore_word? h (by decide)

theorem stopsBefore_null? (h : Delimited rest) : StopsBefore rest null? :=
  stopsBefore_word? h (by decide)

theorem boolean?_eq_none {cs : List Char}
    (h : ∀ w ∈ ["true", "false", "True", "False"], cs.takeWhile isNameChar ≠ w.toList) :
    boolean? cs = none :=
  word?_eq_none (by decide) h

theorem null?_eq_none {cs : List Char}
    (h : ∀ w ∈ ["none", "None", "null"], cs.takeWhile isNameChar ≠ w.toList) :
    null? cs = none :=
  word?_eq_none (by decide) h

/-- A word is split off in front of anything that cannot go on a name. -/
theorem takeWhile_word {w : String} (h : Delimited rest) (hw : w.toList.all isNameChar = true) :
    (w.toList ++ rest).takeWhile isNameChar = w.toList := by
  rw [(takeWhile_append (h.stops isNameChar_delimiter) _).1]
  have htake : (w.toList ++ []).takeWhile isNameChar = w.toList ++ [].takeWhile isNameChar :=
    List.takeWhile_append_of_pos (List.all_eq_true.mp hw)
  rwa [List.append_nil, List.takeWhile_nil, List.append_nil] at htake

theorem isNameChar_reservedWords : ∀ w ∈ reservedWords, w.toList.all isNameChar = true := by
  decide

theorem noGap_of_word {w : String} (hw : w ∈ reservedWords) :
    ∀ c ∈ w.toList, isGap c = false :=
  fun c hc =>
    isGap_of_isNameChar (List.all_eq_true.mp (isNameChar_reservedWords w hw) c hc)

/-- A word begins like a name. -/
theorem head_of_word {w : String} (hw : w ∈ reservedWords) :
    ∃ c r, w.toList = c :: r ∧ isNameStart c = true := by
  simp only [reservedWords, List.mem_cons, List.not_mem_nil, or_false] at hw
  rcases hw with rfl | rfl | rfl | rfl | rfl | rfl | rfl <;> exact ⟨_, _, rfl, rfl⟩

/-! ## Strings -/

/-- The inside of a string that means a text. -/
def escaped (text : List Char) : List Char :=
  text.flatMap fun c => if c = '"' ∨ c = '\\' then ['\\', c] else [c]

/-- A text as a string literal: in double quotes, with a backslash before each quote and
backslash. -/
def quoted (text : List Char) : List Char :=
  '"' :: escaped text ++ ['"']

theorem string?_eq_none {c : Char} (hdouble : c ≠ '"') (hsingle : c ≠ '\'') (cs : List Char) :
    string? (c :: cs) = none := by
  simp [string?, stringIn?, hdouble, hsingle]

/-! ## Paths and words -/

theorem noGap_of_path? {cs : List Char} (h : path? cs = some (cs, [])) :
    ∀ c ∈ cs, isGap c = false := by
  intro c hc
  rcases mem_path? h c hc with hname | rfl
  · exact isGap_of_isNameChar hname
  · rfl

/-- The first segment of a path is the run of name characters at its beginning. -/
theorem takeWhile_path {cs : List Char} (h : ∀ c ∈ cs, isNameChar c = true ∨ c = '.') :
    cs.takeWhile isNameChar = cs.takeWhile (· != '.') := by
  induction cs with
  | nil => rfl
  | cons c cs ih =>
    obtain ⟨hc, hcs⟩ := List.forall_mem_cons.mp h
    -- a dot is no name character, and everything else in a path is one
    have hsame : isNameChar c = (c != '.') := by
      rcases hc with hname | rfl
      · rw [hname]
        refine (bne_iff_ne.mpr ?_).symm
        rintro rfl
        exact absurd hname (by decide)
      · rfl
    rw [List.takeWhile_cons, List.takeWhile_cons, hsame, ih hcs]

/-- A path whose first segment is no word of the language is not taken for one. -/
theorem words_eq_none_of_path? (h : Delimited rest) {cs : List Char}
    (hcs : path? cs = some (cs, []))
    (hfirst : ∀ w ∈ reservedWords, cs.takeWhile (· != '.') ≠ w.toList) :
    boolean? (cs ++ rest) = none ∧ null? (cs ++ rest) = none := by
  have hrun : (cs ++ rest).takeWhile isNameChar = cs.takeWhile (· != '.') := by
    rw [(takeWhile_append (h.stops isNameChar_delimiter) cs).1, takeWhile_path (mem_path? hcs)]
  constructor
  · refine boolean?_eq_none fun w hw => ?_
    rw [hrun]
    exact hfirst w (List.mem_append_left _ hw)
  · refine null?_eq_none fun w hw => ?_
    rw [hrun]
    exact hfirst w (List.mem_append_right ["true", "false", "True", "False"] hw)

/-! ## Dashed names -/

theorem dashedRun_cons {c : Char} (hc : c ≠ '-') (cs : List Char) :
    dashedRun (c :: cs) =
      if isNameChar c then (c :: (dashedRun cs).1, (dashedRun cs).2) else ([], c :: cs) := by
  rw [dashedRun]
  intro _ _ h
  exact absurd h hc

/-- A dash at the end takes nothing of the text behind, since no name begins there. -/
theorem dashedRun_append (h : Delimited rest) (cs : List Char) :
    dashedRun (cs ++ rest) = ((dashedRun cs).1, (dashedRun cs).2 ++ rest) := by
  have hname : ∀ d ∈ rest.head?, ¬ isNameChar d = true := by
    intro d hd
    rw [isNameChar_delimiter d (h d hd)]
    exact Bool.false_ne_true
  fun_induction dashedRun cs with
  | case1 =>
    cases rest with
    | nil => rfl
    | cons d rest =>
      have hminus : d ≠ '-' := by
        rintro rfl
        exact absurd (h '-' rfl) (by decide)
      rw [List.nil_append, dashedRun_cons hminus, if_neg (hname d rfl)]
  | case2 c cs hc taken left hrun ih =>
    rw [List.cons_append, List.cons_append, dashedRun, if_pos hc, ih, hrun]
  | case3 c cs hc => rw [List.cons_append, List.cons_append, dashedRun, if_neg hc]
  | case4 c cs hinner hc taken left hrun ih =>
    have hminus : c ≠ '-' := by
      rintro rfl
      exact absurd hc (by decide)
    rw [List.cons_append, dashedRun_cons hminus, if_pos hc, ih, hrun]
  | case5 c cs hinner hc =>
    by_cases hminus : c = '-'
    · subst hminus
      cases cs with
      | cons d cs => exact absurd rfl (hinner d cs rfl)
      | nil =>
        cases rest with
        | nil => rfl
        | cons d rest => rw [List.singleton_append, dashedRun, if_neg (hname d rfl)]
    · rw [List.cons_append, dashedRun_cons hminus, if_neg hc]

theorem stopsBefore_dashedName? (h : Delimited rest) : StopsBefore rest dashedName? := by
  intro cs
  cases cs with
  | nil =>
    cases rest with
    | nil => rfl
    | cons d rest => exact if_neg (isNameStart_delimiter d (h d rfl))
  | cons c cs =>
    rw [List.cons_append, dashedName?, dashedName?, dashedRun_append h]
    split <;> rfl

/-- Of a path, a dashed name takes no more than the first segment. -/
theorem dashedRun_segment :
    ∀ {cs : List Char}, (∀ c ∈ cs, isNameChar c = true ∨ c = '.') →
      (dashedRun cs).2 = [] ∨ ∃ r, (dashedRun cs).2 = '.' :: r
  | [], _ => Or.inl rfl
  | c :: cs, hcs => by
    obtain ⟨hc, hrest⟩ := List.forall_mem_cons.mp hcs
    have hminus : c ≠ '-' := by
      rintro rfl
      exact absurd hc (by decide)
    rw [dashedRun_cons hminus]
    split
    next => exact dashedRun_segment hrest
    next hname => exact Or.inr ⟨_, congrArg (· :: _) (hc.resolve_left hname)⟩

theorem dashedName?_eq_none {c : Char} (h : isNameStart c = false) (cs : List Char) :
    dashedName? (c :: cs) = none :=
  if_neg (by rw [h]; exact Bool.false_ne_true)

theorem head_of_dashedName? {cs : List Char} {s : List Char × List Char}
    (h : dashedName? cs = some s) : ∃ c r, cs = c :: r ∧ isNameStart c = true := by
  cases cs with
  | nil => cases h
  | cons c r =>
    rw [dashedName?] at h
    split at h
    next hstart => exact ⟨c, r, rfl, hstart⟩
    next => cases h

theorem dashedName?_of_isNameStart {c : Char} (h : isNameStart c = true) (cs : List Char) :
    dashedName? (c :: cs) = some (c :: (dashedRun cs).1, (dashedRun cs).2) :=
  if_pos h

end TagTemplate.Lexeme
