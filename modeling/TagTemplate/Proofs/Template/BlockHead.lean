import TagTemplate.Proofs.Expression.WellQuoted
import TagTemplate.Template.Part

/-!
# The head of a block

The content of a block is blanks, the name of a tag and its arguments. Nothing is lost when it is
taken apart (`BlockHead.source_of_read?`), and written like that it is taken apart into the same name
and arguments, if the name does not go on in them (`BlockHead.read?_append`). What stands in front of
the arguments has no quotes, so a block is well quoted if its arguments are.
-/

namespace TagTemplate.Template

open Lexeme (WellQuoted IsPlain)

/-- A letter, digit or underscore of ASCII. -/
def isBlockNameChar (c : Char) : Bool :=
  c.isAlphanum || c == '_'

/-- A letter or underscore, then letters, digits and underscores, all of ASCII. -/
def isBlockName (name : String) : Bool :=
  match name.toList with
  | [] => false
  | c :: cs => (c.isAlpha || c == '_') && cs.all isBlockNameChar

theorem isPlain_of_isBlank {c : Char} (h : Text.isBlank c = true) : IsPlain c :=
  Lexeme.isPlain_of_all (by decide) h

theorem isPlain_of_isBlockNameChar {c : Char} (h : isBlockNameChar c = true) : IsPlain c :=
  Lexeme.isPlain_of_all (by decide) h

theorem isBlockNameChar_of_start {c : Char} (h : (c.isAlpha || c == '_') = true) :
    isBlockNameChar c = true := by
  unfold isBlockNameChar Char.isAlphanum
  rcases Bool.or_eq_true_iff.mp h with halpha | hunder
  · rw [halpha]
    rfl
  · rw [hunder, Bool.or_true]

/-- A name begins with a letter or underscore. -/
theorem exists_cons_of_isBlockName {name : String} (h : isBlockName name = true) :
    ∃ c cs, name.toList = c :: cs ∧ (c.isAlpha || c == '_') = true ∧
      ∀ d ∈ cs, isBlockNameChar d = true := by
  unfold isBlockName at h
  split at h
  next => cases h
  next c cs hcs =>
    obtain ⟨hstart, hinner⟩ := Bool.and_eq_true_iff.mp h
    exact ⟨c, cs, hcs, hstart, List.all_eq_true.mp hinner⟩

theorem isBlockNameChar_of_mem {name : String} (h : isBlockName name = true) :
    ∀ c ∈ name.toList, isBlockNameChar c = true := by
  obtain ⟨c, cs, hcs, hstart, hinner⟩ := exists_cons_of_isBlockName h
  rw [hcs]
  exact List.forall_mem_cons.mpr ⟨isBlockNameChar_of_start hstart, hinner⟩

theorem isBlank_eq_false_of_start {c : Char} (h : (c.isAlpha || c == '_') = true) :
    Text.isBlank c = false := by
  rw [Bool.or_eq_true, Lexeme.isAlpha_iff, beq_iff_eq] at h
  rcases h with h | h
  · simp only [Text.isBlank, Bool.or_eq_false_iff, Bool.and_eq_false_iff, decide_eq_false_iff_not,
      beq_eq_false_iff_ne]
    omega
  · subst h
    decide

namespace BlockHead

/-- Nothing is lost of a content that is taken apart. -/
theorem source_of_read? {content : String} {head : BlockHead} (h : read? content = some head) :
    ∃ blanks, content.toList = blanks ++ (head.name.toList ++ head.args.toList) ∧
      head.offset = byteSize (blanks ++ head.name.toList) ∧
      (∀ c ∈ blanks, Text.isBlank c = true) ∧ ∀ c ∈ head.name.toList, isBlockNameChar c = true := by
  unfold read? at h
  dsimp only at h
  split at h
  next => cases h
  next c rest hrest =>
    split at h
    next hstart =>
      cases h
      refine ⟨content.toList.takeWhile Text.isBlank, ?_, ?_, ?_, ?_⟩
      · rw [String.toList_ofList, String.toList_ofList, List.cons_append,
          List.takeWhile_append_dropWhile, ← hrest, List.takeWhile_append_dropWhile]
      · rw [String.toList_ofList]
      · exact fun c hc => List.all_eq_true.mp List.all_takeWhile c hc
      · rw [String.toList_ofList]
        refine List.forall_mem_cons.mpr ⟨isBlockNameChar_of_start hstart, fun d hd => ?_⟩
        exact List.all_eq_true.mp List.all_takeWhile d hd
    next => cases h

theorem read?_eq_some {content : String} {c : Char} {rest : List Char}
    (hrest : content.toList.dropWhile Text.isBlank = c :: rest)
    (hstart : (c.isAlpha || c == '_') = true) :
    read? content = some ⟨String.ofList (c :: rest.takeWhile isBlockNameChar),
      String.ofList (rest.dropWhile isBlockNameChar),
      byteSize (content.toList.takeWhile Text.isBlank ++ c :: rest.takeWhile isBlockNameChar)⟩ := by
  unfold read?
  dsimp only
  rw [hrest]
  exact if_pos hstart

/-- What is written as a head is read as one. -/
theorem read?_append (blanks : String) {name args : String}
    (hblanks : ∀ c ∈ blanks.toList, Text.isBlank c = true) (hname : isBlockName name = true)
    (hargs : ∀ c, args.toList.head? = some c → isBlockNameChar c = false) :
    ∃ offset, read? (blanks ++ (name ++ args)) = some ⟨name, args, offset⟩ := by
  obtain ⟨c, cs, hcs, hstart, htail⟩ := exists_cons_of_isBlockName hname
  have hblank := isBlank_eq_false_of_start hstart
  -- the blanks end at the name, and the name ends at the arguments
  have hrest : (blanks ++ (name ++ args)).toList.dropWhile Text.isBlank =
      c :: (cs ++ args.toList) := by
    rw [String.toList_append, String.toList_append, hcs, List.dropWhile_append_of_pos hblanks,
      List.cons_append, List.dropWhile_cons_of_neg (by rw [hblank]; exact Bool.false_ne_true)]
  have htake : args.toList.takeWhile isBlockNameChar = [] := by
    cases hlist : args.toList with
    | nil => rfl
    | cons d ds =>
      rw [hlist] at hargs
      exact List.takeWhile_cons_of_neg (by rw [hargs d rfl]; exact Bool.false_ne_true)
  have hdrop : args.toList.dropWhile isBlockNameChar = args.toList := by
    have hboth := List.takeWhile_append_dropWhile (p := isBlockNameChar) (l := args.toList)
    rwa [htake, List.nil_append] at hboth
  have hread := read?_eq_some hrest hstart
  rw [List.takeWhile_append_of_pos htail, List.dropWhile_append_of_pos htail, htake, hdrop,
    List.append_nil, ← hcs, String.ofList_toList, String.ofList_toList] at hread
  exact ⟨_, hread⟩

/-- A block is well quoted if its arguments are. -/
theorem wellQuoted_of_read? {content : String} {head : BlockHead} (h : read? content = some head)
    (hargs : WellQuoted head.args.toList) : WellQuoted content.toList := by
  obtain ⟨blanks, hcontent, -, hblanks, hname⟩ := source_of_read? h
  rw [hcontent]
  have hfront := Lexeme.wellQuoted_of_isPlain fun c hc => isPlain_of_isBlank (hblanks c hc)
  have hmiddle := Lexeme.wellQuoted_of_isPlain fun c hc => isPlain_of_isBlockNameChar (hname c hc)
  exact hfront.append (hmiddle.append hargs)

end BlockHead

end TagTemplate.Template
