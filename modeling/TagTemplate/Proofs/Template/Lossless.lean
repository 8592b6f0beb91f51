import TagTemplate.Proofs.Position
import TagTemplate.Proofs.Template.ByteScan

/-!
# Cutting keeps everything

What the pieces of a source are is said without a scanner that goes over them: they are the source
when they are put together, a text goes up to the next opener that is closed, and a marked piece up
to the closer that is found among the bytes behind its opener (`Piece.Fits`). Parts list the pieces,
each with the place at which its content stands (`Lists`).

> `lossless_ofSource`: the pieces of a source are the only ones that fit, and its parts are these
> without the comments, each at its offset.
-/

namespace TagTemplate

namespace Template

/-! ## Where pieces end -/

/-- No opener begins in the text, not even with a brace behind it. -/
def NoOpener (cs : List Char) : Prop :=
  ∀ m : Mark, ¬ m.opener <:+: cs ++ ['\x7b']

/-- The first opener in the text, if there is one, is not closed. -/
def Unclosed (cs : List Char) : Prop :=
  ∀ (front : List Char) (m : Mark) (rest : List Char), cs = front ++ (m.opener ++ rest) →
    NoOpener front → ¬ m.closer <:+: rest

/-- The piece ends where it should, with the pieces `after` behind it. Texts do not meet. -/
def Piece.Fits : Piece → (after : List Piece) → Prop
  | .text cs, [] => cs ≠ [] ∧ Unclosed cs
  | .text cs, .marked _ _ :: _ => cs ≠ [] ∧ NoOpener cs
  | .text _, .text _ :: _ => False
  | .marked m content, after =>
    closerOffset? m (utf8 (content ++ (m.closer ++ after.flatMap Piece.source))) =
      some (byteSize content)

/-- Every piece ends where it should. -/
def Piece.AllFit : List Piece → Prop
  | [] => True
  | p :: after => p.Fits after ∧ Piece.AllFit after

/-- The parts list the pieces that stand behind `before`, in order and without the comments, and a
marked part knows how many bytes are in front of its content. -/
inductive Lists : (before : List Char) → List Piece → List Part → Prop
  | nil {before : List Char} : Lists before [] []
  | text {before cs : List Char} {ps : List Piece} {parts : List Part}
      (h : Lists (before ++ cs) ps parts) :
      Lists before (.text cs :: ps) (.text (String.ofList cs) :: parts)
  | output {before cs : List Char} {ps : List Piece} {parts : List Part}
      (h : Lists (before ++ (Piece.marked .output cs).source) ps parts) :
      Lists before (.marked .output cs :: ps)
        (.output (String.ofList cs) (String.ofList (before ++ ['\x7b', '\x7b'])).utf8ByteSize ::
          parts)
  | block {before cs : List Char} {ps : List Piece} {parts : List Part}
      (h : Lists (before ++ (Piece.marked .block cs).source) ps parts) :
      Lists before (.marked .block cs :: ps)
        (.block (String.ofList cs) (String.ofList (before ++ ['\x7b', '%'])).utf8ByteSize :: parts)
  | comment {before cs : List Char} {ps : List Piece} {parts : List Part}
      (h : Lists (before ++ (Piece.marked .comment cs).source) ps parts) :
      Lists before (.marked .comment cs :: ps) parts

/-- The content of a part. -/
def Part.content : Part → String
  | text content => content
  | output content _ => content
  | block content _ => content

variable {m : Mark} {cs front content rest : List Char}

/-! ## Openers -/

theorem NoOpener.splitAtOpener_eq_none (h : NoOpener cs) : splitAtOpener cs = none :=
  Template.splitAtOpener_eq_none fun m hm => h m (hm.trans (List.prefix_append ..).isInfix)

theorem NoOpener.getLast?_ne (h : NoOpener cs) : cs.getLast? ≠ some '\x7b' := by
  intro hlast
  obtain ⟨init, rfl⟩ := List.getLast?_eq_some_iff.mp hlast
  refine h .output ⟨init, [], ?_⟩
  rw [List.append_nil, List.append_assoc]
  rfl

theorem splitAtOpener_of_noOpener (h : NoOpener front) (m : Mark) (rest : List Char) :
    splitAtOpener (front ++ (m.opener ++ rest)) = some (front, m, rest) := by
  have hopener : splitAtOpener (m.opener ++ rest) = some ([], m, rest) := by
    cases m <;> rfl
  rw [splitAtOpener_text_append h.splitAtOpener_eq_none h.getLast?_ne, hopener]
  exact congrArg (fun before => some (before, m, rest)) (List.append_nil front)

theorem ofChar?_opening (m : Mark) : Mark.ofChar? m.opening = some m := by
  cases m <;> rfl

/-- The text in front of the first opener. -/
theorem noOpener_of_splitAtOpener (h : splitAtOpener cs = some (front, m, rest)) :
    NoOpener front := by
  induction cs generalizing front with
  | nil => cases h
  | cons c cs ih =>
    cases hmark : markAt? c cs with
    | some k =>
      rw [splitAtOpener_of_mark hmark] at h
      cases h
      intro k
      cases k <;> decide
    | none =>
      rw [splitAtOpener_of_not_mark hmark] at h
      obtain ⟨b, rfl, hb⟩ := prepend_eq_some_iff.mp h
      intro k hk
      rw [List.cons_append, List.infix_cons_iff] at hk
      rcases hk with hprefix | hinfix
      · -- an opener that begins at `c` goes on in `cs`, whose first character is that of `b`, or
        -- the brace behind it
        obtain ⟨tail, htail⟩ := hprefix
        obtain ⟨hc, htail⟩ := List.cons.inj htail
        have hhead : cs.head? = some k.opening := by
          rw [source_of_splitAtOpener hb]
          cases b with
          | nil =>
            rw [List.nil_append] at htail
            exact congrArg some (List.cons.inj htail).1.symm
          | cons d b => exact congrArg some (List.cons.inj htail).1.symm
        rw [markAt?, if_pos hc.symm, hhead, Option.bind_some, ofChar?_opening] at hmark
        cases hmark
      · exact ih hb k hinfix

/-! ## Closers -/

theorem prepend_eq_none_iff {α : Type} {c : Char} {split : Option (List Char × α)} :
    prepend c split = none ↔ split = none := by
  cases split with
  | none => exact iff_of_true rfl rfl
  | some s => exact iff_of_false (fun h => by cases h) fun h => by cases h

theorem splitAtFirst_eq_none_iff : splitAtFirst m cs = none ↔ ¬ m.closer <:+: cs := by
  induction cs with
  | nil => exact iff_of_true rfl (by cases m <;> decide)
  | cons c cs ih =>
    rw [splitAtFirst, List.infix_cons_iff, not_or, ← ih]
    split
    next hprefix =>
      exact iff_of_false (fun h => by cases h) fun h => h.1 (List.isPrefixOf_iff_prefix.mp hprefix)
    next hprefix =>
      rw [List.isPrefixOf_iff_prefix] at hprefix
      exact prepend_eq_none_iff.trans (and_iff_right hprefix).symm

/-- Whether there is an end does not depend on strings. -/
theorem splitAtCloser_eq_none_iff : splitAtCloser m cs = none ↔ ¬ m.closer <:+: cs := by
  constructor
  · intro h
    rw [← splitAtFirst_eq_none_iff]
    unfold splitAtCloser at h
    split at h
    next => exact h
    next =>
      split at h
      next => cases h
      next => exact h
  · intro h
    cases hsplit : splitAtCloser m cs with
    | none => rfl
    | some split =>
      exact absurd ⟨_, _, (List.append_assoc ..).trans (source_of_splitAtCloser hsplit).symm⟩ h

theorem exists_inner_of_splitPiece (h : splitPiece cs = some (front, m, content, rest)) :
    ∃ inner, splitAtOpener cs = some (front, m, inner) ∧
      splitAtCloser m inner = some (content, rest) := by
  unfold splitPiece at h
  split at h
  next => cases h
  next front' m' inner hopen =>
    obtain ⟨split, hclose, heq⟩ := Option.map_eq_some_iff.mp h
    cases heq
    exact ⟨inner, hopen, hclose⟩

/-- A text is not cut if the first opener in it is not closed. -/
theorem splitPiece_eq_none_iff : splitPiece cs = none ↔ Unclosed cs := by
  constructor
  · rintro hnone front m rest rfl hfront
    rw [splitPiece, splitAtOpener_of_noOpener hfront] at hnone
    exact splitAtCloser_eq_none_iff.mp (Option.map_eq_none_iff.mp hnone)
  · intro hunclosed
    rw [splitPiece]
    cases hopen : splitAtOpener cs with
    | none => rfl
    | some split =>
      obtain ⟨front, m, inner⟩ := split
      have hnone := hunclosed front m inner (source_of_splitAtOpener hopen)
        (noOpener_of_splitAtOpener hopen)
      exact Option.map_eq_none_iff.mpr (splitAtCloser_eq_none_iff.mpr hnone)

/-- The content of a marked piece that is closed. -/
theorem fits_marked_iff {after : List Piece} :
    (Piece.marked m content).Fits after ↔
      splitAtCloser m (content ++ (m.closer ++ after.flatMap Piece.source)) =
        some (content, after.flatMap Piece.source) := by
  rw [Piece.Fits, closerOffset?_utf8]
  constructor
  · intro h
    obtain ⟨⟨content', rest⟩, hsplit, hsize⟩ := Option.map_eq_some_iff.mp h
    obtain ⟨rfl, hrest⟩ := append_inj_of_byteSize (source_of_splitAtCloser hsplit) hsize.symm
    rw [hsplit, List.append_cancel_left hrest]
  · intro h
    rw [h]
    rfl

/-! ## The pieces fit, and no others -/

/-- The pieces are cut one after another. -/
theorem allFit_pieces (cs : List Char) : Piece.AllFit (pieces cs) := by
  fun_induction pieces cs with
  | case1 cs hsplit =>
    by_cases hcs : cs = []
    · subst hcs
      trivial
    · rw [textPieces_of_ne_nil hcs]
      exact ⟨⟨hcs, splitPiece_eq_none_iff.mp hsplit⟩, trivial⟩
  | case2 cs front m content rest hsplit _ ih =>
    obtain ⟨inner, hopen, hclose⟩ := exists_inner_of_splitPiece hsplit
    have hmarked : (Piece.marked m content).Fits (pieces rest) := by
      rw [fits_marked_iff, flatMap_source_pieces, ← source_of_splitAtCloser hclose]
      exact hclose
    by_cases hfront : front = []
    · subst hfront
      exact ⟨hmarked, ih⟩
    · rw [textPieces_of_ne_nil hfront]
      exact ⟨⟨hfront, noOpener_of_splitAtOpener hopen⟩, hmarked, ih⟩

/-- Pieces that fit are those of their source. -/
theorem eq_pieces_of_allFit {ps : List Piece} (h : Piece.AllFit ps) :
    ps = pieces (ps.flatMap Piece.source) := by
  induction ps with
  | nil => exact pieces_nil.symm
  | cons p ps ih =>
    obtain ⟨hp, hps⟩ := h
    specialize ih hps
    rw [List.flatMap_cons]
    rcases p with cs | ⟨m, content⟩
    · rcases ps with _ | ⟨content | ⟨m, content⟩, ps⟩
      · rw [List.flatMap_nil, List.append_nil, Piece.source,
          pieces_of_splitPiece_none (splitPiece_eq_none_iff.mpr hp.2), textPieces_of_ne_nil hp.1]
      · exact hp.elim
      · rw [Piece.source, pieces_text_append hp.2.splitAtOpener_eq_none hp.2.getLast?_ne, ← ih,
          pushText, textPieces_of_ne_nil hp.1]
        · rfl
        · exact fun _ _ h => by cases h
    · rw [Piece.source, List.append_assoc, List.append_assoc,
        pieces_opener_append (fits_marked_iff.mp hp), ← ih]

/-! ## Parts -/

theorem lists_ofPieces (before : List Char) (ps : List Piece) :
    Lists before ps (Part.ofPieces (byteSize before) ps) := by
  induction ps generalizing before with
  | nil => exact .nil
  | cons p ps ih =>
    have hmore := ih (before ++ p.source)
    rw [byteSize_append] at hmore
    have hoffset : ∀ m : Mark, byteSize before + byteSize m.opener =
        (String.ofList (before ++ m.opener)).utf8ByteSize := by
      intro m
      rw [utf8ByteSize_ofList, byteSize_append]
    rcases p with cs | ⟨_ | _ | _, cs⟩
    · exact .text hmore
    · rw [Part.ofPieces, hoffset]
      exact .output hmore
    · rw [Part.ofPieces, hoffset]
      exact .block hmore
    · exact .comment hmore

/-- Where the content of a marked piece stands. -/
theorem append_source_marked (before : List Char) (m : Mark) (content rest : List Char) :
    before ++ ((Piece.marked m content).source ++ rest) =
      (before ++ m.opener) ++ ((String.ofList content).toList ++ (m.closer ++ rest)) := by
  rw [Piece.source, String.toList_ofList]
  simp only [List.append_assoc]

/-- The content of a marked part stands at its offset. -/
theorem Lists.exists_front {before : List Char} {ps : List Piece} {parts : List Part}
    (h : Lists before ps parts) {part : Part} (hpart : part ∈ parts) {offset : Nat}
    (hoffset : part.offset? = some offset) :
    ∃ front back, before ++ ps.flatMap Piece.source = front ++ (part.content.toList ++ back) ∧
      (String.ofList front).utf8ByteSize = offset := by
  induction h with
  | nil => cases hpart
  | text h ih =>
    rcases List.mem_cons.mp hpart with rfl | hpart
    · cases hoffset
    · rw [List.flatMap_cons, ← List.append_assoc]
      exact ih hpart
  | @output before cs ps parts h ih =>
    rcases List.mem_cons.mp hpart with rfl | hpart
    · cases hoffset
      exact ⟨_, _, append_source_marked before .output cs _, rfl⟩
    · rw [List.flatMap_cons, ← List.append_assoc]
      exact ih hpart
  | @block before cs ps parts h ih =>
    rcases List.mem_cons.mp hpart with rfl | hpart
    · cases hoffset
      exact ⟨_, _, append_source_marked before .block cs _, rfl⟩
    · rw [List.flatMap_cons, ← List.append_assoc]
      exact ih hpart
  | comment h ih =>
    rw [List.flatMap_cons, ← List.append_assoc]
    exact ih hpart

/-! ## The parts of a source -/

/-- Cutting a source into parts loses nothing. -/
structure Lossless (source : String) : Prop where
  /-- The pieces are the only ones that are the source when they are put together and end where
  they should. -/
  cut : ∀ ps, ps = pieces source.toList ↔
    ps.flatMap Piece.source = source.toList ∧ Piece.AllFit ps
  /-- The parts are these without the comments. -/
  listed : Lists [] (pieces source.toList) (Part.ofSource source)
  /-- The content of a marked part stands in the source at its offset. -/
  placed : ∀ part ∈ Part.ofSource source, ∀ offset, part.offset? = some offset →
    ∃ front back : String, source = front ++ (part.content ++ back) ∧ front.utf8ByteSize = offset

/-- Whatever a source is, its parts and comments are all of it. -/
theorem lossless_ofSource (source : String) : Lossless source where
  cut ps := by
    constructor
    · rintro rfl
      exact ⟨flatMap_source_pieces _, allFit_pieces _⟩
    · rintro ⟨hsource, hfit⟩
      rw [← hsource]
      exact eq_pieces_of_allFit hfit
  listed := lists_ofPieces [] _
  placed part hpart offset hoffset := by
    obtain ⟨front, back, hsource, hsize⟩ :=
      (lists_ofPieces [] (pieces source.toList)).exists_front hpart hoffset
    refine ⟨String.ofList front, String.ofList back, ?_, hsize⟩
    rw [List.nil_append, flatMap_source_pieces] at hsource
    rw [← String.toList_inj, hsource]
    simp only [String.toList_append, String.toList_ofList]

/-- A closer in a string behind a hidden character of two bytes, a comment, and an opener that is
not closed. -/
example : Part.ofSource "é\x7b\x7b'\\é\x7d\x7d'\x7d\x7d\x7b# \x7b\x7b #\x7d\x7b% x" =
    [.text "é", .output "'\\é\x7d\x7d'" 4, .text "\x7b% x"] := by
  decide +kernel

end Template

end TagTemplate
