/-!
# Pieces of template source

Template source is text with marked pieces in it: outputs in double braces, blocks in percent
braces, comments in hash braces. `pieces` cuts a source into these, from left to right, and
`Piece.source` writes a piece as it stood, so that the pieces of a source put together are the
source again.

A marked piece ends at the first closer outside quoted strings. If a string in it is not closed,
the first closer ends it, so that the fault is found when its content is read. Without any closer
the rest of the source is text. Comments know no strings.
-/

namespace TagTemplate.Template

/-- The three kinds of marked piece. -/
inductive Mark where
  | output | block | comment
  deriving DecidableEq

namespace Mark

/-- The character after the brace that opens a marked piece. -/
def opening : Mark → Char
  | output => '\x7b'
  | block => '%'
  | comment => '#'

/-- The character before the brace that closes it. -/
def closing : Mark → Char
  | output => '\x7d'
  | block => '%'
  | comment => '#'

/-- The mark that a character after an opening brace makes. -/
def ofChar? (c : Char) : Option Mark :=
  if c = '\x7b' then some output
  else if c = '%' then some block
  else if c = '#' then some comment
  else none

/-- The two characters that open a marked piece. -/
def opener (m : Mark) : List Char :=
  ['\x7b', m.opening]

/-- The two characters that close it. -/
def closer (m : Mark) : List Char :=
  [m.closing, '\x7d']

theorem opening_of_ofChar? {c : Char} {m : Mark} (h : ofChar? c = some m) : m.opening = c := by
  unfold ofChar? at h
  split at h
  · cases h; simp_all [opening]
  · split at h
    · cases h; simp_all [opening]
    · split at h
      · cases h; simp_all [opening]
      · cases h

end Mark

/-- A part of a split, with one more character before it. -/
def prepend {α : Type} (c : Char) : Option (List Char × α) → Option (List Char × α)
  | some (before, a) => some (c :: before, a)
  | none => none

/-- Splits a text at the first opener: what stands before it, its mark, what comes after. -/
def splitAtOpener : List Char → Option (List Char × Mark × List Char)
  | [] => none
  | c :: cs =>
    match (if c = '\x7b' then cs.head?.bind Mark.ofChar? else none) with
    | some m => some ([], m, cs.drop 1)
    | none => prepend c (splitAtOpener cs)

/-- Splits a text at the first closer. -/
def splitAtFirst (m : Mark) : List Char → Option (List Char × List Char)
  | [] => none
  | c :: cs =>
    if m.closer.isPrefixOf (c :: cs) then some ([], cs.drop 1)
    else prepend c (splitAtFirst m cs)

/-- Splits a text at the first closer outside strings; `quote` is that of the string in which the
text begins. In a string a backslash hides the next character. -/
def splitOutsideStrings (m : Mark) : (quote : Option Char) → List Char →
    Option (List Char × List Char)
  | _, [] => none
  | some q, '\\' :: c :: cs => prepend '\\' (prepend c (splitOutsideStrings m (some q) cs))
  | some q, c :: cs => prepend c (splitOutsideStrings m (if c = q then none else some q) cs)
  | none, c :: cs =>
    if c = '"' ∨ c = '\'' then prepend c (splitOutsideStrings m (some c) cs)
    else if m.closer.isPrefixOf (c :: cs) then some ([], cs.drop 1)
    else prepend c (splitOutsideStrings m none cs)

/-- Splits what follows an opener at its closer. -/
def splitAtCloser (m : Mark) (cs : List Char) : Option (List Char × List Char) :=
  match m with
  | .comment => splitAtFirst m cs
  | _ =>
    match splitOutsideStrings m none cs with
    | some split => some split
    | none => splitAtFirst m cs

/-- A piece of template source. -/
inductive Piece where
  | text (content : List Char)
  | marked (mark : Mark) (content : List Char)
  deriving DecidableEq

/-- The source of a piece. -/
def Piece.source : Piece → List Char
  | .text content => content
  | .marked mark content => mark.opener ++ content ++ mark.closer

/-- A text as pieces: one, or none if it is empty. -/
def textPieces (cs : List Char) : List Piece :=
  if cs.isEmpty then [] else [.text cs]

theorem prepend_eq_some_iff {α : Type} {c : Char} {s : Option (List Char × α)} {before : List Char}
    {a : α} : prepend c s = some (before, a) ↔ ∃ b, before = c :: b ∧ s = some (b, a) := by
  cases s with
  | none => simp [prepend]
  | some s =>
    obtain ⟨b, d⟩ := s
    constructor
    · intro h; cases h; exact ⟨b, rfl, rfl⟩
    · rintro ⟨_, rfl, h⟩; cases h; rfl

theorem source_of_splitAtOpener {cs before rest : List Char} {m : Mark}
    (h : splitAtOpener cs = some (before, m, rest)) : cs = before ++ (m.opener ++ rest) := by
  induction cs generalizing before with
  | nil => simp [splitAtOpener] at h
  | cons c cs ih =>
    unfold splitAtOpener at h
    split at h
    · rename_i k hk
      split at hk
      · rename_i hc
        cases cs with
        | nil => simp at hk
        | cons d ds =>
          simp only [List.head?_cons, Option.bind_some] at hk
          simp only [Option.some.injEq, Prod.mk.injEq, List.drop_succ_cons, List.drop_zero] at h
          obtain ⟨rfl, rfl, rfl⟩ := h
          simp [Mark.opener, Mark.opening_of_ofChar? hk, hc]
      · cases hk
    · obtain ⟨b, rfl, hb⟩ := prepend_eq_some_iff.1 h
      simp [ih hb]

/-- A text that begins with a closer is the closer and what comes after it. -/
theorem eq_closer_append {m : Mark} {c : Char} {cs : List Char}
    (h : m.closer.isPrefixOf (c :: cs) = true) : c :: cs = m.closer ++ cs.drop 1 := by
  rw [List.isPrefixOf_iff_prefix] at h
  obtain ⟨t, ht⟩ := h
  rw [← ht]
  simp only [Mark.closer, List.cons_append, List.nil_append, List.cons.injEq] at ht
  obtain ⟨-, rfl⟩ := ht
  rfl

theorem source_of_splitAtFirst {m : Mark} {cs content rest : List Char}
    (h : splitAtFirst m cs = some (content, rest)) : cs = content ++ (m.closer ++ rest) := by
  induction cs generalizing content with
  | nil => simp [splitAtFirst] at h
  | cons c cs ih =>
    unfold splitAtFirst at h
    split at h
    · rename_i hp
      cases h
      exact eq_closer_append hp
    · obtain ⟨b, rfl, hb⟩ := prepend_eq_some_iff.1 h
      simp [ih hb]

theorem source_of_splitOutsideStrings {m : Mark} {quote : Option Char}
    {cs content rest : List Char} (h : splitOutsideStrings m quote cs = some (content, rest)) :
    cs = content ++ (m.closer ++ rest) := by
  fun_induction splitOutsideStrings m quote cs generalizing content with
  | case1 => simp at h
  | case2 q c cs ih =>
    obtain ⟨b, rfl, hb⟩ := prepend_eq_some_iff.1 h
    obtain ⟨d, rfl, hd⟩ := prepend_eq_some_iff.1 hb
    simp [ih hd]
  | case3 q c cs _ ih =>
    obtain ⟨b, rfl, hb⟩ := prepend_eq_some_iff.1 h
    simp [ih hb]
  | case4 c cs _ ih =>
    obtain ⟨b, rfl, hb⟩ := prepend_eq_some_iff.1 h
    simp [ih hb]
  | case5 c cs _ hp =>
    cases h
    exact eq_closer_append hp
  | case6 c cs _ _ ih =>
    obtain ⟨b, rfl, hb⟩ := prepend_eq_some_iff.1 h
    simp [ih hb]

theorem source_of_splitAtCloser {m : Mark} {cs content rest : List Char}
    (h : splitAtCloser m cs = some (content, rest)) : cs = content ++ (m.closer ++ rest) := by
  unfold splitAtCloser at h
  split at h
  · exact source_of_splitAtFirst h
  · split at h
    · rename_i hs
      cases h
      exact source_of_splitOutsideStrings hs
    · exact source_of_splitAtFirst h

/-- Splits a text at its first marked piece: what stands before it, its mark and content, and what
comes after. -/
def splitPiece (cs : List Char) : Option (List Char × Mark × List Char × List Char) :=
  match splitAtOpener cs with
  | none => none
  | some (before, m, inner) =>
    (splitAtCloser m inner).map fun (content, rest) => (before, m, content, rest)

theorem source_of_splitPiece {cs before content rest : List Char} {m : Mark}
    (h : splitPiece cs = some (before, m, content, rest)) :
    cs = before ++ ((Piece.marked m content).source ++ rest) := by
  unfold splitPiece at h
  split at h
  · cases h
  · rename_i b k inner hopen
    obtain ⟨⟨c, r⟩, hclose, heq⟩ := Option.map_eq_some_iff.1 h
    cases heq
    rw [source_of_splitAtOpener hopen, source_of_splitAtCloser hclose]
    simp [Piece.source]

theorem length_lt_of_splitPiece {cs before content rest : List Char} {m : Mark}
    (h : splitPiece cs = some (before, m, content, rest)) : rest.length < cs.length := by
  have := congrArg List.length (source_of_splitPiece h)
  simp only [Piece.source, Mark.opener, List.length_append, List.length_cons] at this
  omega

/-- Cuts a source into pieces. -/
def pieces (cs : List Char) : List Piece :=
  match h : splitPiece cs with
  | none => textPieces cs
  | some (before, m, content, rest) =>
    have := length_lt_of_splitPiece h
    textPieces before ++ .marked m content :: pieces rest
termination_by cs.length

theorem flatMap_source_textPieces (cs : List Char) : (textPieces cs).flatMap Piece.source = cs := by
  cases cs <;> simp [textPieces, Piece.source]

/-- Nothing is lost: the pieces of a source put together are the source. -/
theorem flatMap_source_pieces (cs : List Char) : (pieces cs).flatMap Piece.source = cs := by
  fun_induction pieces cs with
  | case1 => exact flatMap_source_textPieces _
  | case2 cs before m content rest h _ ih =>
    rw [List.flatMap_append, List.flatMap_cons, flatMap_source_textPieces, ih,
      ← source_of_splitPiece h]

end TagTemplate.Template
