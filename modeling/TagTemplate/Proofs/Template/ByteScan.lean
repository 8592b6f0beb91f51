import TagTemplate.Proofs.Template.Pieces

/-!
# The scanner on bytes

The end of a piece is looked for among the bytes of a source, which do not know where a character
begins: a backslash in a string hides the next byte, and if that is one of several, the others are
looked at. All bytes that mean something to the scanner are of ASCII, and no other character has
such a byte, so that nothing is found inside a character.

> `closerOffset?_utf8`: the closer that is found among the bytes of a text is the one at which the
> text is split.
-/

namespace TagTemplate

/-! ## Bytes -/

/-- The bytes of a text. -/
def utf8 (cs : List Char) : List UInt8 :=
  cs.flatMap String.utf8EncodeChar

theorem utf8_cons (c : Char) (cs : List Char) :
    utf8 (c :: cs) = String.utf8EncodeChar c ++ utf8 cs :=
  List.flatMap_cons

/-- No byte is of ASCII. -/
def HighBytes (bytes : List UInt8) : Prop :=
  ∀ b ∈ bytes, 128 ≤ b.toNat

theorem utf8EncodeChar_of_ascii {c : Char} (h : c.toNat < 128) :
    String.utf8EncodeChar c = [c.toUInt8] := by
  refine String.utf8EncodeChar_eq_singleton ?_
  rw [Char.utf8Size_eq_one_iff, UInt32.le_iff_toNat_le]
  exact Nat.le_of_lt_succ h

theorem highBytes_utf8EncodeChar {c : Char} (h : 128 ≤ c.toNat) :
    HighBytes (String.utf8EncodeChar c) := by
  have hhigh : ∀ n, 128 ≤ n → n < 256 → 128 ≤ (UInt8.ofNat n).toNat := by
    intro n hn hlt
    rwa [UInt8.toNat_ofNat', Nat.mod_eq_of_lt hlt]
  have hmany : ¬ c.val.toNat ≤ 127 := Nat.not_le_of_lt h
  simp only [String.utf8EncodeChar, if_neg hmany]
  intro b hb
  split at hb
  · simp only [List.mem_cons, List.not_mem_nil, or_false] at hb
    rcases hb with rfl | rfl <;> exact hhigh _ (by omega) (by omega)
  split at hb
  · simp only [List.mem_cons, List.not_mem_nil, or_false] at hb
    rcases hb with rfl | rfl | rfl <;> exact hhigh _ (by omega) (by omega)
  · simp only [List.mem_cons, List.not_mem_nil, or_false] at hb
    rcases hb with rfl | rfl | rfl | rfl <;> exact hhigh _ (by omega) (by omega)

theorem toUInt8_toNat_of_ascii {c : Char} (h : c.toNat < 128) : c.toUInt8.toNat = c.toNat :=
  Nat.mod_eq_of_lt (Nat.lt_trans h (by decide))

theorem toUInt8_inj_of_ascii {c d : Char} (hc : c.toNat < 128) (hd : d.toNat < 128) :
    c.toUInt8 = d.toUInt8 ↔ c = d := by
  refine ⟨fun h => ?_, congrArg _⟩
  have hnat := congrArg UInt8.toNat h
  rw [toUInt8_toNat_of_ascii hc, toUInt8_toNat_of_ascii hd] at hnat
  exact Char.toNat_inj.mp hnat

theorem ne_toUInt8_of_high {b : UInt8} (hb : 128 ≤ b.toNat) {c : Char} (hc : c.toNat < 128) :
    b ≠ c.toUInt8 := by
  rintro rfl
  rw [toUInt8_toNat_of_ascii hc] at hb
  omega

/-- Bytes of ASCII stand in front of the bytes of a text if the characters do. -/
theorem utf8_prefix_iff {front cs : List Char} (hfront : ∀ c ∈ front, c.toNat < 128) :
    utf8 front <+: utf8 cs ↔ front <+: cs := by
  induction front generalizing cs with
  | nil => exact iff_of_true List.nil_prefix List.nil_prefix
  | cons d front ih =>
    obtain ⟨hd, hfront⟩ := List.forall_mem_cons.mp hfront
    rw [utf8_cons, utf8EncodeChar_of_ascii hd, List.cons_append, List.nil_append]
    cases cs with
    | nil =>
      exact iff_of_false (fun h => List.cons_ne_nil _ _ (List.prefix_nil.mp h))
        fun h => List.cons_ne_nil _ _ (List.prefix_nil.mp h)
    | cons c cs =>
      by_cases hc : c.toNat < 128
      · rw [utf8_cons, utf8EncodeChar_of_ascii hc, List.cons_append, List.nil_append,
          List.cons_prefix_cons, List.cons_prefix_cons, toUInt8_inj_of_ascii hd hc, ih hfront]
      · -- the first byte of `c` is that of no ASCII character
        have hhigh := highBytes_utf8EncodeChar (Nat.le_of_not_lt hc)
        refine iff_of_false ?_ fun h => ?_
        · rintro ⟨behind, hbehind⟩
          rw [List.cons_append, utf8_cons] at hbehind
          cases hbytes : String.utf8EncodeChar c with
          | nil => exact String.utf8EncodeChar_ne_nil hbytes
          | cons b more =>
            rw [hbytes] at hhigh hbehind
            have hb : d.toUInt8 = b := (List.cons.inj hbehind).1
            exact ne_toUInt8_of_high (hhigh b (List.mem_cons_self ..)) hd hb.symm
        · obtain ⟨rfl, -⟩ := List.cons_prefix_cons.mp h
          exact hc hd

namespace Template

/-! ## Looking for a closer -/

/-- The offset of the first closer. -/
def closerAt? (m : Mark) : List UInt8 → Option Nat
  | [] => none
  | b :: bytes =>
    if utf8 m.closer <+: b :: bytes then some 0
    else (closerAt? m bytes).map (· + 1)

/-- Where a byte stands: outside strings, in a string, or behind a backslash in one. -/
inductive ScanState where
  | outside
  | inside (quote : UInt8)
  | hidden (quote : UInt8)

/-- The offset of the first closer outside strings. A backslash in a string hides the next byte. -/
def closerOutsideStrings? (m : Mark) : ScanState → List UInt8 → Option Nat
  | _, [] => none
  | .hidden q, _ :: bytes => (closerOutsideStrings? m (.inside q) bytes).map (· + 1)
  | .inside q, b :: bytes =>
    let next :=
      if b = '\\'.toUInt8 then .hidden q
      else if b = q then .outside
      else .inside q
    (closerOutsideStrings? m next bytes).map (· + 1)
  | .outside, b :: bytes =>
    if b = '"'.toUInt8 ∨ b = '\''.toUInt8 then
      (closerOutsideStrings? m (.inside b) bytes).map (· + 1)
    else if utf8 m.closer <+: b :: bytes then some 0
    else (closerOutsideStrings? m .outside bytes).map (· + 1)

/-- The offset of the closer behind an opener. If there is none outside strings, it is the first. -/
def closerOffset? (m : Mark) (bytes : List UInt8) : Option Nat :=
  match m with
  | .comment => closerAt? m bytes
  | _ => (closerOutsideStrings? m .outside bytes).or (closerAt? m bytes)

/-! ## Characters are passed over -/

variable {m : Mark}

theorem utf8_closer : utf8 m.closer = [m.closing.toUInt8, '\x7d'.toUInt8] := by
  cases m <;> rfl

theorem closing_ascii (m : Mark) : m.closing.toNat < 128 := by
  cases m <;> decide

/-- A closer among the bytes of a text is one in the text. -/
theorem utf8_closer_prefix_iff {cs : List Char} :
    utf8 m.closer <+: utf8 cs ↔ m.closer.isPrefixOf cs = true := by
  rw [List.isPrefixOf_iff_prefix]
  have hbrace : ('\x7d' : Char).toNat < 128 := by decide
  exact utf8_prefix_iff (List.forall_mem_cons.mpr
    ⟨closing_ascii m, List.forall_mem_singleton.mpr hbrace⟩)

/-- A closer does not begin inside a character. -/
theorem not_closer_prefix_of_high {b : UInt8} (hb : 128 ≤ b.toNat) (bytes : List UInt8) :
    ¬ utf8 m.closer <+: b :: bytes := by
  rw [utf8_closer, List.cons_prefix_cons]
  exact fun h => ne_toUInt8_of_high hb (closing_ascii m) h.1.symm

theorem closerAt?_closer {bytes : List UInt8} (h : utf8 m.closer <+: bytes) :
    closerAt? m bytes = some 0 := by
  cases bytes with
  | nil =>
    rw [utf8_closer, List.prefix_nil] at h
    cases h
  | cons b bytes => exact if_pos h

theorem closerAt?_high {high : List UInt8} (hhigh : HighBytes high) (bytes : List UInt8) :
    closerAt? m (high ++ bytes) = (closerAt? m bytes).map (· + high.length) := by
  induction high with
  | nil => exact Option.map_id'.symm
  | cons b high ih =>
    obtain ⟨hb, hhigh⟩ := List.forall_mem_cons.mp hhigh
    rw [List.cons_append, closerAt?, if_neg (not_closer_prefix_of_high hb _), ih hhigh,
      Option.map_map]
    rfl

/-- One character in front of a closer. -/
theorem closerAt?_char {c : Char} {bytes : List UInt8}
    (h : ¬ utf8 m.closer <+: String.utf8EncodeChar c ++ bytes) :
    closerAt? m (String.utf8EncodeChar c ++ bytes) =
      (closerAt? m bytes).map (· + c.utf8Size) := by
  rw [← String.length_utf8EncodeChar]
  by_cases hc : c.toNat < 128
  · rw [utf8EncodeChar_of_ascii hc] at h ⊢
    exact if_neg h
  · exact closerAt?_high (highBytes_utf8EncodeChar (Nat.le_of_not_lt hc)) bytes

/-- The state of a text that begins in a string, or outside. -/
def ScanState.ofQuote : Option Char → ScanState
  | none => .outside
  | some q => .inside q.toUInt8

/-- The character begins and ends strings. -/
def IsStringQuote (q : Char) : Prop :=
  q = '"' ∨ q = '\''

theorem IsStringQuote.ascii {q : Char} (h : IsStringQuote q) : q.toNat < 128 := by
  rcases h with rfl | rfl <;> decide

theorem closerOutsideStrings?_high (quote : Option Char) (hquote : ∀ q ∈ quote, IsStringQuote q)
    {high : List UInt8} (hhigh : HighBytes high) (bytes : List UInt8) :
    closerOutsideStrings? m (.ofQuote quote) (high ++ bytes) =
      (closerOutsideStrings? m (.ofQuote quote) bytes).map (· + high.length) := by
  induction high with
  | nil => exact Option.map_id'.symm
  | cons b high ih =>
    obtain ⟨hb, hhigh⟩ := List.forall_mem_cons.mp hhigh
    have hstep : closerOutsideStrings? m (.ofQuote quote) (b :: (high ++ bytes)) =
        (closerOutsideStrings? m (.ofQuote quote) (high ++ bytes)).map (· + 1) := by
      cases quote with
      | none =>
        rw [ScanState.ofQuote, closerOutsideStrings?, if_neg ?_,
          if_neg (not_closer_prefix_of_high hb _)]
        rintro (h | h)
        · exact ne_toUInt8_of_high hb (by decide) h
        · exact ne_toUInt8_of_high hb (by decide) h
      | some q =>
        rw [ScanState.ofQuote, closerOutsideStrings?, if_neg (ne_toUInt8_of_high hb (by decide)),
          if_neg (ne_toUInt8_of_high hb (hquote q rfl).ascii)]
    rw [List.cons_append, hstep, ih hhigh, Option.map_map]
    rfl

/-! Steps over one character, one for each state. -/

theorem closerOutsideStrings?_hidden {q : Char} (hq : IsStringQuote q) (c : Char)
    (bytes : List UInt8) :
    closerOutsideStrings? m (.hidden q.toUInt8) (String.utf8EncodeChar c ++ bytes) =
      (closerOutsideStrings? m (.inside q.toUInt8) bytes).map (· + c.utf8Size) := by
  rw [← String.length_utf8EncodeChar]
  by_cases hc : c.toNat < 128
  · rw [utf8EncodeChar_of_ascii hc]
    rfl
  · have hhigh := highBytes_utf8EncodeChar (Nat.le_of_not_lt hc)
    cases hbytes : String.utf8EncodeChar c with
    | nil => exact absurd hbytes String.utf8EncodeChar_ne_nil
    | cons b more =>
      -- the backslash hides the first byte only, and the others mean nothing
      rw [hbytes] at hhigh
      have hmore := closerOutsideStrings?_high (m := m) (some q)
        (fun _ h => by cases h; exact hq) (List.forall_mem_cons.mp hhigh).2 bytes
      rw [ScanState.ofQuote] at hmore
      rw [List.cons_append, closerOutsideStrings?, hmore, Option.map_map]
      rfl

theorem closerOutsideStrings?_inside {q : Char} (hq : IsStringQuote q) (c : Char)
    (bytes : List UInt8) :
    closerOutsideStrings? m (.inside q.toUInt8) (String.utf8EncodeChar c ++ bytes) =
      (closerOutsideStrings? m (if c = '\\' then .hidden q.toUInt8
        else .ofQuote (if c = q then none else some q)) bytes).map (· + c.utf8Size) := by
  have hslash : ('\\' : Char).toNat < 128 := by decide
  rw [← String.length_utf8EncodeChar]
  by_cases hc : c.toNat < 128
  · rw [utf8EncodeChar_of_ascii hc, List.cons_append, List.nil_append, closerOutsideStrings?]
    simp only [toUInt8_inj_of_ascii hc hslash, toUInt8_inj_of_ascii hc hq.ascii,
      apply_ite ScanState.ofQuote]
    rfl
  · rw [if_neg (by rintro rfl; exact hc hslash), if_neg (by rintro rfl; exact hc hq.ascii)]
    exact closerOutsideStrings?_high (some q) (fun _ h => by cases h; exact hq)
      (highBytes_utf8EncodeChar (Nat.le_of_not_lt hc)) bytes

theorem closerOutsideStrings?_quote {q : Char} (hq : IsStringQuote q) (bytes : List UInt8) :
    closerOutsideStrings? m .outside (String.utf8EncodeChar q ++ bytes) =
      (closerOutsideStrings? m (.inside q.toUInt8) bytes).map (· + q.utf8Size) := by
  rw [← String.length_utf8EncodeChar, utf8EncodeChar_of_ascii hq.ascii]
  refine if_pos ?_
  rcases hq with rfl | rfl
  · exact Or.inl rfl
  · exact Or.inr rfl

theorem closerOutsideStrings?_outside {c : Char} (hc : ¬ IsStringQuote c) {bytes : List UInt8}
    (hcloser : ¬ utf8 m.closer <+: String.utf8EncodeChar c ++ bytes) :
    closerOutsideStrings? m .outside (String.utf8EncodeChar c ++ bytes) =
      (closerOutsideStrings? m .outside bytes).map (· + c.utf8Size) := by
  rw [← String.length_utf8EncodeChar]
  by_cases hascii : c.toNat < 128
  · rw [utf8EncodeChar_of_ascii hascii, List.cons_append, List.nil_append] at hcloser ⊢
    rw [closerOutsideStrings?, if_neg ?_, if_neg hcloser]
    · rfl
    · rw [toUInt8_inj_of_ascii hascii (by decide), toUInt8_inj_of_ascii hascii (by decide)]
      exact hc
  · exact closerOutsideStrings?_high none (fun _ h => by cases h)
      (highBytes_utf8EncodeChar (Nat.le_of_not_lt hascii)) bytes

theorem closerOutsideStrings?_closer {bytes : List UInt8} (h : utf8 m.closer <+: bytes) :
    closerOutsideStrings? m .outside bytes = some 0 := by
  cases bytes with
  | nil =>
    rw [utf8_closer, List.prefix_nil] at h
    cases h
  | cons b bytes =>
    rw [closerOutsideStrings?, if_neg ?_, if_pos h]
    rw [utf8_closer, List.cons_prefix_cons] at h
    rw [← h.1]
    cases m <;> decide

/-! ## The closer that is found -/

/-- The offset at which a split is. -/
theorem map_byteSize_prepend (c : Char) (split : Option (List Char × List Char)) :
    (prepend c split).map (fun s => byteSize s.1) =
      (split.map fun s => byteSize s.1).map (· + c.utf8Size) := by
  cases split with
  | none => rfl
  | some s => exact congrArg some (Nat.add_comm ..)

theorem closerAt?_utf8 (cs : List Char) :
    closerAt? m (utf8 cs) = (splitAtFirst m cs).map fun s => byteSize s.1 := by
  induction cs with
  | nil => rfl
  | cons c cs ih =>
    rw [splitAtFirst]
    split
    next hcloser => exact closerAt?_closer (utf8_closer_prefix_iff.mpr hcloser)
    next hcloser =>
      rw [← utf8_closer_prefix_iff, utf8_cons] at hcloser
      rw [utf8_cons, closerAt?_char hcloser, ih, map_byteSize_prepend]

/-- The cases are those of the scanner of characters. -/
theorem closerOutsideStrings?_utf8 (quote : Option Char) (hquote : ∀ q ∈ quote, IsStringQuote q)
    (cs : List Char) :
    closerOutsideStrings? m (.ofQuote quote) (utf8 cs) =
      (splitOutsideStrings m quote cs).map fun s => byteSize s.1 := by
  fun_induction splitOutsideStrings m quote cs with
  | case1 quote => cases quote <;> rfl
  | case2 q c cs ih =>
    have hq := hquote q rfl
    rw [utf8_cons, utf8_cons, ScanState.ofQuote, closerOutsideStrings?_inside hq, if_pos rfl,
      closerOutsideStrings?_hidden hq, map_byteSize_prepend, map_byteSize_prepend, ← ih hquote]
    rfl
  | case3 q c cs hslash ih =>
    have hq := hquote q rfl
    rw [utf8_cons, ScanState.ofQuote, closerOutsideStrings?_inside hq, map_byteSize_prepend]
    by_cases hc : c = '\\'
    · -- the backslash is the last character
      cases cs with
      | nil =>
        rw [if_pos hc]
        rfl
      | cons d ds => exact absurd rfl (hslash d ds hc)
    · rw [if_neg hc, ih]
      intro other hother
      split at hother
      · cases hother
      · exact hquote other hother
  | case4 c cs hc ih =>
    rw [utf8_cons, ScanState.ofQuote, closerOutsideStrings?_quote hc, map_byteSize_prepend,
      ← ih (fun _ h => by cases h; exact hc)]
    rfl
  | case5 c cs hc hcloser => exact closerOutsideStrings?_closer (utf8_closer_prefix_iff.mpr hcloser)
  | case6 c cs hc hcloser ih =>
    rw [← utf8_closer_prefix_iff, utf8_cons] at hcloser
    rw [utf8_cons, ScanState.ofQuote, closerOutsideStrings?_outside hc hcloser,
      map_byteSize_prepend, ← ih hquote]
    rfl

/-- Without a closer outside strings, the first one counts. -/
theorem splitAtCloser_eq_or (hm : m ≠ .comment) (cs : List Char) :
    splitAtCloser m cs = (splitOutsideStrings m none cs).or (splitAtFirst m cs) := by
  cases m with
  | comment => exact absurd rfl hm
  | output =>
    unfold splitAtCloser
    cases splitOutsideStrings .output none cs <;> rfl
  | block =>
    unfold splitAtCloser
    cases splitOutsideStrings .block none cs <;> rfl

/-- The closer among the bytes is the one at which the text is split. -/
theorem closerOffset?_utf8 (m : Mark) (cs : List Char) :
    closerOffset? m (utf8 cs) = (splitAtCloser m cs).map fun s => byteSize s.1 := by
  by_cases hm : m = .comment
  · subst hm
    exact closerAt?_utf8 cs
  · have houtside := closerOutsideStrings?_utf8 (m := m) none (fun _ h => by cases h) cs
    rw [ScanState.ofQuote] at houtside
    rw [closerOffset?, splitAtCloser_eq_or hm, Option.map_or, houtside, closerAt?_utf8]
    exact hm

end Template

end TagTemplate
