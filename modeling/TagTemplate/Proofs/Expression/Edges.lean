import TagTemplate.Proofs.Expression.Alike
import TagTemplate.Proofs.Expression.Parts
import TagTemplate.Text.Blank

/-!
# How the texts of arguments begin and end

Whatever an argument consists of, its text begins with a bracket, a quote, a sign or a word
(`Begins`), and ends in a bracket, a quote or a word, up to a gap (`Ends`). A word ends where no name
goes on, since every class of lexemes either takes all the name characters that there are or is no
such lexeme in front of one. The one exception is a number at the end of a dotted path, which ends
where the digits end.

> `Argument.endsInNumber_of_runOn`: if two arguments stand next to each other with nothing between
> them, and there is a name character on both sides, then the first ends in such a number, and the
> second begins with no digit.
-/

namespace TagTemplate

namespace Lexeme

/-! ## Lexemes -/

/-- A text without blanks, like every lexeme but a string. -/
def Solid (cs : List Char) : Prop :=
  ∀ c ∈ cs, Text.isBlank c = false

theorem Solid.exists_concat {cs : List Char} (h : Solid cs) (hne : cs ≠ []) :
    ∃ init last, cs = init ++ [last] ∧ Text.isBlank last = false := by
  rcases List.eq_nil_or_concat cs with rfl | ⟨init, last, rfl⟩
  · exact absurd rfl hne
  · rw [List.concat_eq_append] at h ⊢
    exact ⟨init, last, rfl, h last (List.mem_append_right init (List.mem_singleton_self last))⟩

theorem isBlank_of_isNameChar {c : Char} (h : isNameChar c = true) : Text.isBlank c = false := by
  have hvalue : c.val.toNat = c.toNat := rfl
  simp only [isNameChar, Char.isAlphanum, Bool.or_eq_true, isAlpha_iff, Char.isDigit,
    Bool.and_eq_true, decide_eq_true_eq, beq_iff_eq, Char.reduceVal, UInt32.le_iff_toNat_le,
    UInt32.reduceToNat] at h
  rcases h with (hword | rfl) | rfl
  · simp only [Text.isBlank, Bool.or_eq_false_iff, Bool.and_eq_false_iff, decide_eq_false_iff_not,
      beq_eq_false_iff_ne]
    omega
  · decide
  · decide

theorem solid_digits {ds : List Char} (h : ∀ d ∈ ds, d.isDigit = true) : Solid ds :=
  fun d hd => isBlank_of_isNameChar (isNameChar_of_isDigit (h d hd))

theorem solid_signedDigits? {cs taken left : List Char}
    (h : signedDigits? cs = some (taken, left)) : Solid taken := by
  obtain ⟨ds, htaken, -, hdigits⟩ := signedDigits?_eq_some h
  rcases htaken with rfl | rfl
  · exact solid_digits hdigits
  · exact List.forall_mem_cons.mpr ⟨rfl, solid_digits hdigits⟩

theorem solid_float? {cs taken left : List Char} (h : float? cs = some (taken, left)) :
    Solid taken := by
  obtain ⟨ds, fs, htaken, -, hdigits, hfraction⟩ := float?_eq_some h
  have hnumber : Solid (ds ++ '.' :: fs) :=
    List.forall_mem_append.mpr ⟨solid_digits hdigits,
      List.forall_mem_cons.mpr ⟨rfl, solid_digits hfraction⟩⟩
  rcases htaken with rfl | rfl
  · exact hnumber
  · exact List.forall_mem_cons.mpr ⟨rfl, hnumber⟩

theorem solid_word? {words : List String} (hwords : ∀ w ∈ words, w.toList.all isNameChar = true)
    {cs taken left : List Char} (h : word? words cs = some (taken, left)) : Solid taken := by
  obtain ⟨w, hw, rfl, -, -⟩ := word?_eq_some h
  exact fun c hc => isBlank_of_isNameChar (List.all_eq_true.mp (hwords w hw) c hc)

theorem solid_path? {cs taken left : List Char} (h : path? cs = some (taken, left)) :
    Solid taken := by
  cases cs with
  | nil => cases h
  | cons c cs =>
    rw [path?] at h
    split at h
    next hstart =>
      cases h
      refine List.forall_mem_cons.mpr
        ⟨isBlank_of_isNameChar (isNameChar_of_isNameStart hstart), fun d hd => ?_⟩
      rcases mem_pathRun false cs d hd with hname | rfl
      · exact isBlank_of_isNameChar hname
      · rfl
    next => cases h

/-- The text ends in a dotted path whose last segment is a number. -/
def EndsInNumber (cs : List Char) : Prop :=
  ∃ front stem ds, cs = front ++ (stem ++ '.' :: ds) ∧ ds ≠ [] ∧ (∀ d ∈ ds, d.isDigit = true) ∧
    path? (stem ++ '.' :: ds) = some (stem ++ '.' :: ds, [])

/-- No name goes on behind the text, unless the text ends in the number of a path. -/
def NoRunOn (text rest : List Char) : Prop :=
  ∀ last ∈ text.getLast?, ∀ next ∈ rest.head?, isNameChar last = true → isNameChar next = true →
    EndsInNumber text ∧ next.isDigit = false

/-- The text begins like an expression or a key. -/
def Begins (cs : List Char) : Prop :=
  ∃ c r, cs = c :: r ∧ Text.isBlank c = false ∧ c ∉ [',', '|', '+', '=']

theorem Begins.exists_cons {cs : List Char} (h : Begins cs) :
    ∃ c r, cs = c :: r ∧ Text.isBlank c = false := by
  obtain ⟨c, r, hcs, hblank, -⟩ := h
  exact ⟨c, r, hcs, hblank⟩

/-- Up to a gap at its end the text ends in what is not blank, and does not run into what follows. -/
def Ends (taken rest : List Char) : Prop :=
  ∃ init last blanks, taken = (init ++ [last]) ++ blanks ∧ Gap blanks ∧
    Text.isBlank last = false ∧ NoRunOn (init ++ [last]) (blanks ++ rest)

variable {cs taken left rest front blanks : List Char}

theorem EndsInNumber.append (h : EndsInNumber cs) (front : List Char) :
    EndsInNumber (front ++ cs) := by
  obtain ⟨before, stem, ds, rfl, h⟩ := h
  exact ⟨front ++ before, stem, ds, (List.append_assoc ..).symm, h⟩

theorem Ends.append (h : Ends taken rest) (front : List Char) : Ends (front ++ taken) rest := by
  obtain ⟨init, last, blanks, rfl, hblanks, hlast, hnext⟩ := h
  refine ⟨front ++ init, last, blanks, by simp only [List.append_assoc], hblanks, hlast, ?_⟩
  intro x hx y hy hname hname'
  rw [List.getLast?_concat] at hx
  obtain ⟨hnumber, hdigit⟩ := hnext x (by rwa [List.getLast?_concat]) y hy hname hname'
  rw [List.append_assoc]
  exact ⟨hnumber.append front, hdigit⟩

theorem Ends.gap (h : Ends taken (blanks ++ rest)) (hblanks : Gap blanks) :
    Ends (taken ++ blanks) rest := by
  obtain ⟨init, last, inner, rfl, hinner, hlast, hnext⟩ := h
  refine ⟨init, last, inner ++ blanks, List.append_assoc .., hinner.append hblanks, hlast, ?_⟩
  rwa [List.append_assoc]

/-- A text that ends in a character of its own, such as a bracket or a quote. -/
theorem ends_concat {last : Char} (hlast : Text.isBlank last = false)
    (hname : isNameChar last = false) (init rest : List Char) : Ends (init ++ [last]) rest := by
  refine ⟨init, last, [], (List.append_nil _).symm, gap_nil, hlast, ?_⟩
  intro x hx y _ hx'
  rw [List.getLast?_concat] at hx
  cases hx
  rw [hname] at hx'
  cases hx'

/-- A lexeme behind which no name goes on. -/
theorem ends_of_noRunOn (hne : taken ≠ []) (hsolid : Solid taken) (h : NoRunOn taken rest) :
    Ends taken rest := by
  obtain ⟨init, last, rfl, hlast⟩ := hsolid.exists_concat hne
  exact ⟨init, last, [], (List.append_nil _).symm, gap_nil, hlast, h⟩

theorem noRunOn_of_endsWord (h : endsWord rest = true) : NoRunOn taken rest := by
  intro x _ y hy _ hname
  cases rest with
  | nil => cases hy
  | cons c rest =>
    cases hy
    rw [endsWord, hname] at h
    cases h

/-! ## Paths -/

/-- Behind a path no name goes on, or it ends in a number behind which no digit stands. In the second
segment of a path that is looked at, the number may have begun before. -/
theorem pathRun_ends (inNumber : Bool) (cs : List Char) :
    endsWord (pathRun inNumber cs).2 = true ∨
      ((∀ d ∈ (pathRun inNumber cs).2.head?, d.isDigit = false) ∧
        ((∃ stem ds, (pathRun inNumber cs).1 = stem ++ '.' :: ds ∧ ds ≠ [] ∧
            ∀ d ∈ ds, d.isDigit = true) ∨
          inNumber = true ∧ ∀ d ∈ (pathRun inNumber cs).1, d.isDigit = true)) := by
  fun_induction pathRun inNumber cs with
  | case1 => exact Or.inl rfl
  | case2 inNumber c cs hstart taken left hrun ih =>
    rw [hrun] at ih
    rcases ih with hend | ⟨hdigit, ⟨stem, ds, rfl, hds⟩ | ⟨hfalse, -⟩⟩
    · exact Or.inl hend
    · exact Or.inr ⟨hdigit, Or.inl ⟨'.' :: c :: stem, ds, rfl, hds⟩⟩
    · cases hfalse
  | case3 inNumber c cs hstart hc taken left hrun ih =>
    rw [hrun] at ih
    rcases ih with hend | ⟨hdigit, ⟨stem, ds, rfl, hds⟩ | ⟨-, hall⟩⟩
    · exact Or.inl hend
    · exact Or.inr ⟨hdigit, Or.inl ⟨'.' :: c :: stem, ds, rfl, hds⟩⟩
    · refine Or.inr ⟨hdigit, Or.inl ⟨[], c :: taken, rfl, List.cons_ne_nil _ _, ?_⟩⟩
      exact List.forall_mem_cons.mpr ⟨hc, hall⟩
  | case4 => exact Or.inl rfl
  | case5 inNumber c cs hinner hgoes taken left hrun ih =>
    rw [hrun] at ih
    rcases ih with hend | ⟨hdigit, ⟨stem, ds, rfl, hds⟩ | ⟨rfl, hall⟩⟩
    · exact Or.inl hend
    · exact Or.inr ⟨hdigit, Or.inl ⟨c :: stem, ds, rfl, hds⟩⟩
    · exact Or.inr ⟨hdigit, Or.inr ⟨rfl, List.forall_mem_cons.mpr ⟨hgoes, hall⟩⟩⟩
  | case6 inNumber c cs hinner hgoes =>
    cases inNumber with
    | false =>
      rw [if_neg Bool.false_ne_true] at hgoes
      exact Or.inl (by rw [endsWord, Bool.eq_false_iff.mpr hgoes]; rfl)
    | true =>
      refine Or.inr ⟨?_, Or.inr ⟨rfl, fun d hd => absurd hd List.not_mem_nil⟩⟩
      intro d hd
      cases hd
      exact Bool.eq_false_iff.mpr hgoes

/-- What a path takes of a text, it takes of this alone. -/
theorem pathRun_taken (inNumber : Bool) (cs : List Char) :
    pathRun inNumber (pathRun inNumber cs).1 = ((pathRun inNumber cs).1, []) := by
  fun_induction pathRun inNumber cs with
  | case1 => rfl
  | case2 inNumber c cs hstart taken left hrun ih =>
    rw [hrun] at ih
    rw [pathRun, if_pos hstart, ih]
  | case3 inNumber c cs hstart hc taken left hrun ih =>
    rw [hrun] at ih
    rw [pathRun, if_neg hstart, if_pos hc, ih]
  | case4 => rfl
  | case5 inNumber c cs hinner hgoes taken left hrun ih =>
    have hdot : c ≠ '.' := by
      rintro rfl
      cases inNumber <;> exact absurd hgoes (by decide)
    rw [hrun] at ih
    rw [pathRun_cons hdot, if_pos hgoes, ih]
  | case6 => rfl

theorem path?_taken (h : path? cs = some (taken, left)) : path? taken = some (taken, []) := by
  cases cs with
  | nil => cases h
  | cons c cs =>
    rw [path?] at h
    split at h
    next hstart =>
      cases h
      rw [path?, if_pos hstart, pathRun_taken]
    next => cases h

theorem noRunOn_path? (h : path? cs = some (taken, left)) : NoRunOn taken left := by
  have hself := path?_taken h
  cases cs with
  | nil => cases h
  | cons c cs =>
    rw [path?] at h
    split at h
    next hstart =>
      cases h
      rcases pathRun_ends false cs with hend | ⟨hdigit, ⟨stem, ds, hpath, hne, hds⟩ | ⟨hfalse, -⟩⟩
      · exact noRunOn_of_endsWord hend
      · intro _ _ next hnext _ _
        refine ⟨⟨[], c :: stem, ds, ?_, hne, hds, ?_⟩, hdigit next hnext⟩
        · rw [hpath]
          rfl
        · rwa [hpath] at hself
      · cases hfalse
    next => cases h

/-! ## Both ends of a lexeme -/

theorem begins_of_isNameStart {c : Char} (h : isNameStart c = true) (r : List Char) :
    Begins (c :: r) := by
  refine ⟨c, r, rfl, isBlank_of_isNameChar (isNameChar_of_isNameStart h), fun hc => ?_⟩
  have hall : ∀ d ∈ [',', '|', '+', '='], isNameStart d = false := by simp [isNameStart]
  rw [hall c hc] at h
  cases h

theorem begins_of_number {c : Char} (h : c = '-' ∨ c.isDigit = true) (r : List Char) :
    Begins (c :: r) := by
  rcases h with rfl | hdigit
  · exact ⟨'-', r, rfl, rfl, by decide⟩
  · refine ⟨c, r, rfl, isBlank_of_isNameChar (isNameChar_of_isDigit hdigit), fun hc => ?_⟩
    have hall : ∀ d ∈ [',', '|', '+', '='], d.isDigit = false := by simp
    rw [hall c hc] at hdigit
    cases hdigit

theorem Begins.append (h : Begins taken) (rest : List Char) : Begins (taken ++ rest) := by
  obtain ⟨c, r, rfl, hc⟩ := h
  exact ⟨c, r ++ rest, rfl, hc⟩

/-- A string is a quote, text inside quotes of this kind, and the same quote. -/
theorem string?_eq_some (h : string? cs = some (taken, left)) :
    ∃ q inside, (q = '"' ∨ q = '\'') ∧ Inside q inside ∧ taken = q :: inside ++ [q] := by
  unfold string? at h
  split at h
  next inside rest hdouble =>
    cases h
    exact ⟨'"', inside, Or.inl rfl, (stringIn?_eq_some hdouble).2, rfl⟩
  next =>
    obtain ⟨⟨inside, rest⟩, hsingle, heq⟩ := Option.map_eq_some_iff.mp h
    cases heq
    exact ⟨'\'', inside, Or.inr rfl, (stringIn?_eq_some hsingle).2, rfl⟩

theorem begins_string? (h : string? cs = some (taken, left)) : Begins taken := by
  obtain ⟨q, inside, hq, -, rfl⟩ := string?_eq_some h
  rcases hq with rfl | rfl <;> exact ⟨_, _, rfl, rfl, by decide⟩

theorem ends_string? (h : string? cs = some (taken, left)) (rest : List Char) :
    Ends taken rest := by
  obtain ⟨q, inside, hq, -, rfl⟩ := string?_eq_some h
  rcases hq with rfl | rfl <;> exact ends_concat rfl rfl _ rest

theorem endsWord_dropWhile (cs : List Char) : endsWord (cs.dropWhile isNameChar) = true := by
  have hhead := List.head?_dropWhile_not isNameChar cs
  cases hrest : cs.dropWhile isNameChar with
  | nil => rfl
  | cons c rest =>
    rw [hrest] at hhead
    have hc : isNameChar c = false := by simpa using hhead
    rw [endsWord, hc]
    rfl

theorem name?_eq_some (h : name? cs = some (taken, left)) :
    (∃ c r, taken = c :: r ∧ isNameStart c = true) ∧ Solid taken ∧ endsWord left = true := by
  cases cs with
  | nil => cases h
  | cons c cs =>
    rw [name?] at h
    split at h
    next hstart =>
      cases h
      refine ⟨⟨c, _, rfl, hstart⟩, ?_, endsWord_dropWhile cs⟩
      refine List.forall_mem_cons.mpr
        ⟨isBlank_of_isNameChar (isNameChar_of_isNameStart hstart), fun d hd => ?_⟩
      exact isBlank_of_isNameChar (List.all_eq_true.mp List.all_takeWhile d hd)
    next => cases h

theorem ends_name? (h : name? cs = some (taken, left)) : Ends taken left := by
  obtain ⟨⟨c, r, rfl, -⟩, hsolid, hend⟩ := name?_eq_some h
  exact ends_of_noRunOn (List.cons_ne_nil c r) hsolid (noRunOn_of_endsWord hend)

theorem solid_dashedRun (cs : List Char) : Solid (dashedRun cs).1 := by
  fun_induction dashedRun cs with
  | case1 => exact fun c hc => absurd hc List.not_mem_nil
  | case2 c cs hname taken rest hrun ih =>
    rw [hrun] at ih
    exact List.forall_mem_cons.mpr
      ⟨rfl, List.forall_mem_cons.mpr ⟨isBlank_of_isNameChar hname, ih⟩⟩
  | case3 => exact fun c hc => absurd hc List.not_mem_nil
  | case4 c cs hinner hname taken rest hrun ih =>
    rw [hrun] at ih
    exact List.forall_mem_cons.mpr ⟨isBlank_of_isNameChar hname, ih⟩
  | case5 => exact fun c hc => absurd hc List.not_mem_nil

theorem dashedName?_eq_some (h : dashedName? cs = some (taken, left)) :
    (∃ c r, taken = c :: r ∧ isNameStart c = true) ∧ Solid taken := by
  obtain ⟨c, r, rfl, hstart⟩ := head_of_dashedName? h
  rw [dashedName?_of_isNameStart hstart] at h
  cases h
  refine ⟨⟨c, _, rfl, hstart⟩, List.forall_mem_cons.mpr ⟨?_, solid_dashedRun r⟩⟩
  exact isBlank_of_isNameChar (isNameChar_of_isNameStart hstart)

variable {kind : Expr.Kind}

theorem IsLiteral.begins (h : IsLiteral cs taken left kind) (hcs : cs = taken ++ left) :
    Begins taken := by
  have htaken : ∀ {c : Char} {r : List Char}, cs = c :: r → taken ≠ [] → ∃ s, taken = c :: s := by
    intro c r heq hne
    obtain ⟨d, s, rfl⟩ := List.exists_cons_of_ne_nil hne
    rw [hcs] at heq
    exact ⟨s, by rw [(List.cons.inj heq).1]⟩
  cases h with
  | float h =>
    obtain ⟨c, r, heq, hc⟩ := head_of_float? h
    obtain ⟨s, rfl⟩ := htaken heq (neverEmpty_float? _ _ _ h)
    exact begins_of_number hc s
  | int h =>
    obtain ⟨c, r, heq, hc⟩ := head_of_signedDigits? (wholeWord_eq_some_iff.mp h).1
    obtain ⟨s, rfl⟩ := htaken heq (neverEmpty_int? _ _ _ h)
    exact begins_of_number hc s
  | bool h =>
    obtain ⟨w, hw, rfl, -, -⟩ := word?_eq_some h
    obtain ⟨c, r, hword, hc⟩ := head_of_word (List.mem_append_left _ hw)
    rw [hword]
    exact begins_of_isNameStart hc r
  | null h =>
    obtain ⟨w, hw, rfl, -, -⟩ := word?_eq_some h
    obtain ⟨c, r, hword, hc⟩ :=
      head_of_word (List.mem_append_right ["true", "false", "True", "False"] hw)
    rw [hword]
    exact begins_of_isNameStart hc r
  | path _ _ h =>
    obtain ⟨c, r, heq, hc⟩ := head_of_path? h
    obtain ⟨s, rfl⟩ := htaken heq (neverEmpty_path? _ _ _ h)
    exact begins_of_isNameStart hc s

theorem IsLiteral.ends (h : IsLiteral cs taken left kind) : Ends taken left := by
  have hword : ∀ {split : Split}, wholeWord split = some (taken, left) → NoRunOn taken left :=
    fun h => noRunOn_of_endsWord (wholeWord_eq_some_iff.mp h).2
  cases h with
  | float h => exact ends_of_noRunOn (neverEmpty_float? _ _ _ h) (solid_float? h) (hword h)
  | int h =>
    have hsolid := solid_signedDigits? (wholeWord_eq_some_iff.mp h).1
    exact ends_of_noRunOn (neverEmpty_int? _ _ _ h) hsolid (hword h)
  | bool h =>
    exact ends_of_noRunOn (neverEmpty_boolean? _ _ _ h) (solid_word? (by decide) h) (hword h)
  | null h =>
    exact ends_of_noRunOn (neverEmpty_null? _ _ _ h) (solid_word? (by decide) h) (hword h)
  | path _ _ h => exact ends_of_noRunOn (neverEmpty_path? _ _ _ h) (solid_path? h) (noRunOn_path? h)

end Lexeme

open Lexeme (Gap Around MayHaveComma Begins Ends)

/-! ## The rules of the language -/

variable {c d e : Cursor} {text taken : List Char}

namespace Reader

variable {α : Type} {p : Reader α} {lead : List Char → Prop} {as : List α}

/-- A text that goes on with items ends as the last of them does. -/
theorem Run.ends (h : Run lead p c as d)
    (hp : ∀ {a} {c₁ c₂ : Cursor}, p.read? c₁ = some (a, c₂) →
      ∃ taken, c₁.Moves taken c₂ ∧ Ends taken c₂.rest)
    (hmoves : e.Moves text c) (htext : Ends text c.rest) :
    ∃ more, e.Moves (text ++ more) d ∧ Ends (text ++ more) d.rest := by
  induction h generalizing text with
  | nil c =>
    rw [← List.append_nil text] at hmoves htext
    exact ⟨[], hmoves, htext⟩
  | cons _ hm hitem _ ih =>
    obtain ⟨taken, htaken, hends⟩ := hp hitem
    have hfront := hmoves.trans (hm.trans htaken)
    obtain ⟨more, hmore, hend⟩ := ih hfront ((hends.append _).append text)
    rw [List.append_assoc] at hmore hend
    exact ⟨_, hmore, hend⟩

end Reader

namespace Grammar

open Reader

theorem Bracketed.exists_moves {α : Type} {opening closing : Char} {item : Reader α} {as : List α}
    (h : Bracketed opening closing item c as d) (hitem : Takes item) :
    ∃ middle, c.Moves (opening :: (middle ++ [closing])) d := by
  cases h with
  | nil _ hmoves => exact ⟨_, hmoves⟩
  | @cons _ _ _ _ front tail _ _ _ hopen hfirst hmore _ hclose =>
    obtain ⟨first, hfirst⟩ := hitem.moves hfirst
    obtain ⟨more, hmore⟩ := hmore.takes hitem
    have hall := hopen.trans (hfirst.trans (hmore.trans hclose))
    refine ⟨front ++ (first ++ (more ++ tail)), ?_⟩
    simpa only [List.cons_append, List.append_assoc] using hall

theorem ends_brackets {opening closing : Char} (hclosing : closing ∈ [')', ']', '\x7d'])
    (middle rest : List Char) : Ends (opening :: (middle ++ [closing])) rest := by
  have hlast : Text.isBlank closing = false ∧ Lexeme.isNameChar closing = false := by
    simp only [List.mem_cons, List.not_mem_nil, or_false] at hclosing
    rcases hclosing with rfl | rfl | rfl <;> exact ⟨rfl, rfl⟩
  obtain ⟨hblank, hname⟩ := hlast
  exact Lexeme.ends_concat hblank hname (opening :: middle) rest

/-- A name, given as a name or as a string, begins and ends in what is not blank. -/
theorem IsNamed.edges {split : List Char → Lexeme.Split} {cs left : List Char} {name : String}
    (h : IsNamed split cs taken left name)
    (hsplit : split cs = some (taken, left) →
      (∃ a r, taken = a :: r ∧ Lexeme.isNameStart a = true) ∧ Lexeme.Solid taken) :
    Begins taken ∧ ∃ init last, taken = init ++ [last] ∧ Text.isBlank last = false := by
  rcases h with ⟨hstring, -⟩ | ⟨hname, -⟩
  · refine ⟨Lexeme.begins_string? hstring, ?_⟩
    obtain ⟨q, inside, hq, -, rfl⟩ := Lexeme.string?_eq_some hstring
    rcases hq with rfl | rfl <;> exact ⟨_, _, rfl, rfl⟩
  · obtain ⟨⟨a, r, rfl, ha⟩, hsolid⟩ := hsplit hname
    exact ⟨Lexeme.begins_of_isNameStart ha r, hsolid.exists_concat (List.cons_ne_nil a r)⟩

theorem key_edges {token : Token} (h : key.read? c = some (token, d)) :
    ∃ taken, c.Moves taken d ∧ token.span = .over c.position taken ∧ Begins taken ∧
      ∃ init last, taken = init ++ [last] ∧ Text.isBlank last = false := by
  obtain ⟨taken, hnamed, hmoves, hspan⟩ := key_eq_some h
  exact ⟨taken, hmoves, hspan, hnamed.edges Lexeme.dashedName?_eq_some⟩

theorem dictKey_edges {token : Token} (h : dictKey.read? c = some (token, d)) :
    ∃ taken, c.Moves taken d ∧ token.span = .over c.position taken ∧ Begins taken ∧
      ∃ init last, taken = init ++ [last] ∧ Text.isBlank last = false := by
  obtain ⟨taken, hnamed, hmoves, hspan⟩ := dictKey_eq_some h
  refine ⟨taken, hmoves, hspan, hnamed.edges fun hname => ?_⟩
  obtain ⟨hfirst, hsolid, -⟩ := Lexeme.name?_eq_some hname
  exact ⟨hfirst, hsolid⟩

section Inner

variable {inner : Reader Expr} {x : Expr} (hinner : Takes inner)
include hinner

theorem Primary.edges (h : Primary inner c x d) :
    ∃ taken, c.Moves taken d ∧ Begins taken ∧ Ends taken d.rest := by
  have hbrackets : ∀ {opening closing : Char} {middle : List Char},
      opening ∈ ['(', '[', '\x7b'] → closing ∈ [')', ']', '\x7d'] →
        c.Moves (opening :: (middle ++ [closing])) d →
          ∃ taken, c.Moves taken d ∧ Begins taken ∧ Ends taken d.rest := by
    intro opening closing middle hopening hclosing hmoves
    have hfirst : Text.isBlank opening = false ∧ opening ∉ [',', '|', '+', '='] := by
      simp only [List.mem_cons, List.not_mem_nil, or_false] at hopening
      rcases hopening with rfl | rfl | rfl <;> exact ⟨rfl, by simp⟩
    exact ⟨_, hmoves, ⟨opening, _, rfl, hfirst⟩, ends_brackets hclosing ..⟩
  cases h with
  | @group _ _ _ front back _ _ hopen hread _ hclose =>
    obtain ⟨body, hbody⟩ := hinner.moves hread
    have hall : c.Moves ('(' :: ((front ++ (body ++ back)) ++ [')'])) d := by
      simpa only [List.cons_append, List.append_assoc] using hopen.trans (hbody.trans hclose)
    exact hbrackets (by decide) (by decide) hall
  | list hitems _ =>
    obtain ⟨middle, hmoves⟩ := hitems.exists_moves hinner
    exact hbrackets (by decide) (by decide) hmoves
  | dict hentries _ =>
    obtain ⟨middle, hmoves⟩ := hentries.exists_moves (takes_dictItem hinner)
    exact hbrackets (by decide) (by decide) hmoves
  | literal hliteral hmoves => exact ⟨_, hmoves, hliteral.begins hmoves.rest, hliteral.ends⟩
  | text hstring hmoves =>
    exact ⟨_, hmoves, Lexeme.begins_string? hstring, Lexeme.ends_string? hstring _⟩

theorem ends_filter {f : FilterCall Expr} (h : (filter inner).read? c = some (f, d)) :
    ∃ taken, c.Moves taken d ∧ Ends taken d.rest := by
  cases filter_eq_some h with
  | bare _ hbar hsplit hname _ hback hmoves =>
    have hend := Lexeme.ends_name? hsplit
    rw [hmoves.rest] at hend
    exact ⟨_, hbar.trans (hname.trans hmoves), (hend.gap hback).append _⟩
  | args _ hbar _ hname _ _ hmoves hargs =>
    obtain ⟨middle, hargs⟩ := hargs.exists_moves hinner
    refine ⟨_, hbar.trans (hname.trans (hmoves.trans hargs)), ?_⟩
    exact (((ends_brackets (by decide) ..).append _).append _).append _

theorem operand_edges (h : (operand inner).read? c = some (x, d)) :
    ∃ taken, c.Moves taken d ∧ Begins taken ∧ Ends taken d.rest := by
  obtain ⟨y, c₁, fs, c₂, blanks, _, hprimary, hfilters, hblanks, hmoves, -, -⟩ :=
    operand_eq_some hinner h
  obtain ⟨front, hfront, hbegins, hends⟩ := hprimary.edges hinner
  obtain ⟨more, hmore, hend⟩ := hfilters.ends (ends_filter hinner) hfront hends
  rw [hmoves.rest] at hend
  exact ⟨_, hmore.trans hmoves, (hbegins.append _).append _, hend.gap hblanks⟩

theorem expression_edges (h : (expression inner).read? c = some (x, d)) :
    ∃ taken, c.Moves taken d ∧ Begins taken ∧ Ends taken d.rest := by
  cases expression_eq_some hinner h with
  | single hread hback hmoves =>
    obtain ⟨taken, htaken, hbegins, hend⟩ := operand_edges hinner hread
    rw [hmoves.rest] at hend
    exact ⟨_, htaken.trans hmoves, hbegins.append _, hend.gap hback⟩
  | sum hfirst hmore hback hmoves _ =>
    obtain ⟨front, hfront, hbegins, hends⟩ := operand_edges hinner hfirst
    have hoperand : ∀ {a} {c₁ c₂ : Cursor}, (operand inner).read? c₁ = some (a, c₂) →
        ∃ taken, c₁.Moves taken c₂ ∧ Ends taken c₂.rest := by
      intro a c₁ c₂ hread
      obtain ⟨taken, htaken, -, hend⟩ := operand_edges hinner hread
      exact ⟨taken, htaken, hend⟩
    obtain ⟨more, hmore, hend⟩ := hmore.ends hoperand hfront hends
    rw [hmoves.rest] at hend
    exact ⟨_, hmore.trans hmoves, (hbegins.append _).append _, hend.gap hback⟩

theorem argument_edges {a : Argument} (h : (argument inner).read? c = some (a, d)) :
    ∃ taken, c.Moves taken d ∧ Begins taken ∧ Ends taken d.rest := by
  cases argument_eq_some hinner h with
  | keyed hkey _ hmoves hvalue _ =>
    obtain ⟨front, hfront, -, hbegins, -⟩ := key_edges hkey
    obtain ⟨value, hvalue, -, hend⟩ := expression_edges hinner hvalue
    exact ⟨_, hfront.trans (hmoves.trans hvalue), hbegins.append _, (hend.append _).append _⟩
  | bare hvalue _ => exact expression_edges hinner hvalue

/-- The span of an argument is that of its text without the gap at the end. -/
theorem argument_span {a : Argument} (h : (argument inner).read? c = some (a, d))
    (hmoves : c.Moves taken d) : a.span = .over c.position (trimGap taken) := by
  cases argument_eq_some hinner h with
  | keyed _ _ _ _ htaken => rw [hmoves.text_eq htaken]; rfl
  | bare _ htaken => rw [hmoves.text_eq htaken]; rfl

end Inner

theorem isBlank_of_isGap {a : Char} (h : Lexeme.isGap a = true) : Text.isBlank a = true := by
  simp only [Lexeme.isGap, Bool.or_eq_true, beq_iff_eq] at h
  rcases h with ((rfl | rfl) | rfl) | rfl <;> rfl

theorem isGap_of_isBlank {a : Char} (h : Text.isBlank a = false) : Lexeme.isGap a = false := by
  rw [Bool.eq_false_iff]
  intro hgap
  rw [isBlank_of_isGap hgap] at h
  cases h

theorem trimGap_concat {last : Char} (h : Lexeme.isGap last = false) (init : List Char) :
    trimGap (init ++ [last]) = init ++ [last] := by
  have hreverse : (init ++ [last]).reverse = last :: init.reverse := by simp
  rw [trimGap, hreverse, List.dropWhile_cons_of_neg (by rw [h]; exact Bool.false_ne_true),
    ← hreverse, List.reverse_reverse]

/-- A text is what remains of it without the gap at its end, and that gap. -/
theorem exists_trimGap (text : List Char) : ∃ blanks, Gap blanks ∧ text = trimGap text ++ blanks := by
  refine ⟨(text.reverse.takeWhile Lexeme.isGap).reverse, fun a ha => ?_, ?_⟩
  · exact Lexeme.gap_takeWhile text.reverse a (List.mem_reverse.mp ha)
  · rw [trimGap, ← List.reverse_append, List.takeWhile_append_dropWhile, List.reverse_reverse]

theorem trimGap_cons {c : Char} (h : Lexeme.isGap c = false) (r : List Char) :
    ∃ s, trimGap (c :: r) = c :: s := by
  obtain ⟨blanks, hblanks, hsplit⟩ := exists_trimGap (c :: r)
  cases htrim : trimGap (c :: r) with
  | nil =>
    rw [htrim, List.nil_append] at hsplit
    rw [hblanks c (hsplit ▸ List.mem_cons_self ..)] at h
    cases h
  | cons d s =>
    rw [htrim] at hsplit
    exact ⟨s, by rw [(List.cons.inj hsplit).1]⟩

/-- Without the gap at its end, a text begins as it does with it. -/
theorem begins_trimGap (h : Begins taken) : Begins (trimGap taken) := by
  obtain ⟨c, r, rfl, hblank, hmem⟩ := h
  obtain ⟨s, hs⟩ := trimGap_cons (isGap_of_isBlank hblank) r
  exact ⟨c, s, hs, hblank, hmem⟩

/-- Without the gap at its end, a text ends in what is not blank. -/
theorem exists_concat_trimGap {rest : List Char} (h : Ends taken rest) :
    ∃ init last blanks, trimGap taken = init ++ [last] ∧ Text.isBlank last = false ∧ Gap blanks ∧
      taken = trimGap taken ++ blanks ∧ Lexeme.NoRunOn (trimGap taken) (blanks ++ rest) := by
  obtain ⟨init, last, blanks, rfl, hblanks, hlast, hnext⟩ := h
  have hgap : Lexeme.isGap last = false := isGap_of_isBlank hlast
  have htrim : trimGap ((init ++ [last]) ++ blanks) = init ++ [last] := by
    rw [trimGap_append hblanks, trimGap_concat hgap]
  rw [htrim]
  exact ⟨init, last, blanks, rfl, hlast, hblanks, rfl, hnext⟩

end Grammar

/-! ## Arguments that stand next to each other -/

open Reader Grammar

/-- If nothing stands between two arguments but a name character on both sides, then the first ends
in the number of a path, behind which no digit can stand. -/
theorem Argument.endsInNumber_of_runOn {source : String} {args before after : List Argument}
    {a b : Argument} (h : Argument.readList source = .ok args)
    (hargs : args = before ++ a :: b :: after) (hadjacent : a.span.stop = b.span.start.offset)
    {last next : Char} (hlast : last ∈ (a.span.textIn source.toList).getLast?)
    (hnext : next ∈ (b.span.textIn source.toList).head?) (hname : Lexeme.isNameChar last = true)
    (hname' : Lexeme.isNameChar next = true) :
    Lexeme.EndsInNumber (a.span.textIn source.toList) ∧ next.isDigit = false := by
  obtain ⟨end', hread⟩ := readAll_eq_ok_iff.mp (readList_eq_ok_iff.mp h).1
  obtain ⟨_, _, hrun, -, -, -⟩ := signature_eq_some hread
  generalize hinner : expressionAt (source.toList.length + 1) = inner at hrun
  have htakes : Takes inner := hinner ▸ takes_expressionAt _
  rw [hargs] at hrun
  obtain ⟨c, hbefore, hrun⟩ := hrun.split
  cases hrun with
  | @cons _ c₁ c₂ _ lead _ _ _ hm hfirst hmore =>
  cases hmore with
  | @cons _ c₃ c₄ _ between _ _ _ hm' hsecond _ =>
  obtain ⟨front, hfront⟩ := hbefore.takes (takes_argument htakes)
  -- the texts of both arguments, and what stands between them
  obtain ⟨taken, htaken, -, hends⟩ := argument_edges htakes hfirst
  obtain ⟨taken', htaken', -, hends'⟩ := argument_edges htakes hsecond
  obtain ⟨_, _, blanks, -, -, -, hsplit, hsettled⟩ := exists_concat_trimGap hends
  obtain ⟨init, x, blanks', hinit, -, -, hsplit', -⟩ := exists_concat_trimGap hends'
  have hspan := argument_span htakes hfirst htaken
  have hspan' := argument_span htakes hsecond htaken'
  have hrest : c₁.rest = trimGap taken ++ (blanks ++ c₂.rest) := by
    rw [htaken.rest, ← List.append_assoc, ← hsplit]
  have hrest' : c₃.rest = trimGap taken' ++ (blanks' ++ c₄.rest) := by
    rw [htaken'.rest, ← List.append_assoc, ← hsplit']
  have htext : a.span.textIn source.toList = trimGap taken := by
    rw [hspan]
    exact (hfront.trans hm).textIn_over hrest
  have htext' : b.span.textIn source.toList = trimGap taken' := by
    rw [hspan']
    exact (hfront.trans (hm.trans (htaken.trans hm'))).textIn_over hrest'
  -- nothing stands between them, not even a gap
  have hnone : byteSize (blanks ++ between) = 0 := by
    have hoffset := (htaken.trans hm').offset_eq
    rw [hspan, hspan'] at hadjacent
    have hstop : c₁.position.offset + byteSize (trimGap taken) = c₃.position.offset := hadjacent
    rw [hsplit, List.append_assoc, byteSize_append] at hoffset
    omega
  obtain ⟨rfl, rfl⟩ := List.append_eq_nil_iff.mp (eq_nil_of_byteSize hnone)
  rw [htext] at hlast ⊢
  rw [htext', hinit] at hnext
  refine hsettled last hlast next ?_ hname hname'
  rw [List.nil_append, hm'.rest, List.nil_append, hrest', hinit]
  cases init with
  | nil => exact hnext
  | cons y init => exact hnext

/-- Behind the number in a path, a letter is taken for another argument. -/
theorem Argument.readList_letterBehindNumber :
    ∃ a b, Argument.readList "x.0a" = .ok [a, b] ∧ a.span.stop = b.span.start.offset ∧
      a.span.textIn "x.0a".toList = "x.0".toList ∧ b.span.textIn "x.0a".toList = "a".toList ∧
      Lexeme.isNameChar '0' = true ∧ Lexeme.isNameChar 'a' = true :=
  ⟨_, _, rfl, rfl, rfl, rfl, rfl, rfl⟩

/-- A path with a letter behind its number. -/
theorem Argument.endsInNumber_letterBehindNumber :
    ∃ a b, Argument.readList "x.0a" = .ok [a, b] ∧
      Lexeme.EndsInNumber (a.span.textIn "x.0a".toList) ∧ 'a'.isDigit = false := by
  obtain ⟨a, b, hread, hadjacent, hlast, hnext⟩ : ∃ a b, Argument.readList "x.0a" = .ok [a, b] ∧
      a.span.stop = b.span.start.offset ∧ '0' ∈ (a.span.textIn "x.0a".toList).getLast? ∧
      'a' ∈ (b.span.textIn "x.0a".toList).head? :=
    ⟨_, _, rfl, rfl, rfl, rfl⟩
  have hsplit : [a, b] = [] ++ a :: b :: [] := rfl
  exact ⟨a, b, hread,
    Argument.endsInNumber_of_runOn hread hsplit hadjacent hlast hnext (by decide) (by decide)⟩

end TagTemplate
