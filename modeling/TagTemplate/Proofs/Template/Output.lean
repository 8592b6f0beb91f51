import TagTemplate.Proofs.Expression.Takes
import TagTemplate.Proofs.Template.Pieces
import TagTemplate.Proofs.Template.Sequence

/-!
# The end of an output

An output ends at the first closer outside strings, although braces of dictionaries may stand
there as well: a dictionary in a dictionary is read as an expression, and cut in two as an output
(`compile_nestedDict`). This is the only way in which the scanner and the grammar disagree.

> `compile_output_iff`: the text of an expression between double braces compiles to that expression
> exactly if the two braces of a closer stand nowhere in it outside strings, and it does not end in
> the first of them.
-/

namespace TagTemplate.Template

/-- A source without parts is made of comments. -/
theorem exists_eq_append_closer {cs : List Char} (hcs : cs ≠ [])
    (h : (pieces cs).filterMap Piece.part? = []) :
    ∃ front, cs = front ++ Mark.comment.closer := by
  rcases List.eq_nil_or_concat (pieces cs) with hnil | ⟨before, p, hlast⟩
  · have hsource := flatMap_source_pieces cs
    rw [hnil] at hsource
    exact absurd hsource.symm hcs
  · rw [List.concat_eq_append] at hlast
    have hcomment : p.part? = none :=
      List.filterMap_eq_nil_iff.mp h p (by rw [hlast]; exact List.mem_concat_self)
    have hsource := flatMap_source_pieces cs
    rw [hlast, List.flatMap_append] at hsource
    rcases p with content | ⟨_ | _ | _, content⟩
    · cases hcomment
    · cases hcomment
    · cases hcomment
    · refine ⟨before.flatMap Piece.source ++ (Mark.comment.opener ++ content), ?_⟩
      rw [List.append_assoc]
      simpa [Piece.source] using hsource.symm

/-- What is left of an output that was ended early has a part in it. -/
theorem exists_part_of_closesIn {cs content left : List Char} (hlength : content.length < cs.length)
    (hsource : cs ++ Mark.output.closer = content ++ (Mark.output.closer ++ left)) :
    (pieces left).filterMap Piece.part? ≠ [] := by
  intro hnone
  have hleft : left ≠ [] := by
    intro hnil
    have hlengths := congrArg List.length hsource
    rw [hnil] at hlengths
    simp only [List.length_append, List.length_nil] at hlengths
    omega
  obtain ⟨front, rfl⟩ := exists_eq_append_closer hleft hnone
  rw [← List.append_assoc, ← List.append_assoc] at hsource
  cases (List.append_inj' hsource rfl).2

/-- An expression between double braces compiles to itself exactly if there is no closer in it,
also none that the last character of the text would begin. -/
theorem compile_output_iff (env : Environment) {content : String} {value : Expr}
    (hread : Expr.read content = .ok value) :
    env.compile ("\x7b\x7b" ++ content ++ "\x7d\x7d") = .ok [.output value] ↔
      ¬ ClosesIn .output content.toList := by
  have hquoted := Expr.wellQuoted_of_read hread
  have hsource : ("\x7b\x7b" ++ content ++ "\x7d\x7d").toList =
      Mark.output.opener ++ (content.toList ++ (Mark.output.closer ++ [])) := by
    rw [String.toList_append, String.toList_append, List.append_assoc]
    rfl
  rw [compile_eq_ok_iff_pieces, hsource]
  by_cases hcloses : ClosesIn .output content.toList
  · refine iff_of_false (fun hlinear => ?_) (not_not_intro hcloses)
    -- the output ends early, and what is left of it is not only comments
    obtain ⟨early, left, hsplit, hlength⟩ := exists_split_of_closesIn hquoted hcloses []
    rw [List.append_nil] at hsplit
    have hleft := exists_part_of_closesIn hlength (source_of_splitOutsideStrings hsplit)
    rw [List.append_nil,
      pieces_opener_append (splitAtCloser_of_splitOutsideStrings (by decide) hsplit)] at hlinear
    cases hlinear with
    | output _ hrest => exact hleft hrest.eq_nil
  · refine iff_of_true ?_ hcloses
    have hsplit := splitOutsideStrings_of_not_closesIn hquoted hcloses []
    rw [pieces_opener_append (splitAtCloser_of_splitOutsideStrings (by decide) hsplit),
      pieces_of_splitPiece_none rfl]
    exact .output (by rw [String.ofList_toList]; exact hread) .nil

/-- A dictionary in a dictionary, closed by two braces side by side. -/
def nestedDict : String :=
  " \x7ba: \x7bb: 1\x7d\x7d "

/-- It is an expression, but as an output it does not compile. -/
theorem compile_nestedDict :
    ∃ value, Expr.read nestedDict = .ok value ∧
      ∀ (env : Environment) (nodes : List Node),
        env.compile ("\x7b\x7b" ++ nestedDict ++ "\x7d\x7d") ≠ .ok nodes := by
  refine ⟨_, rfl, fun env nodes h => ?_⟩
  have hparts : Part.ofSource ("\x7b\x7b" ++ nestedDict ++ "\x7d\x7d") =
      [.output " \x7ba: \x7bb: 1" 2, .text " \x7d\x7d"] := by
    decide +kernel
  have hlinear := linear_of_compile h
  rw [hparts] at hlinear
  cases hlinear with
  | output hread _ =>
    have herror : ∃ e, Expr.read " \x7ba: \x7bb: 1" = .error e := ⟨_, rfl⟩
    obtain ⟨e, herror⟩ := herror
    rw [hread] at herror
    cases herror

/-- With a blank between its braces, and with closers in strings only, it does. -/
theorem compile_spacedDict :
    ∃ value, Expr.read "\x7ba: \x7bb: '\x7d\x7d'\x7d \x7d | upper" = .ok value ∧
      Environment.standard.compile
        ("\x7b\x7b" ++ "\x7ba: \x7bb: '\x7d\x7d'\x7d \x7d | upper" ++ "\x7d\x7d") =
          .ok [.output value] := by
  refine ⟨_, rfl, ?_⟩
  exact (compile_output_iff Environment.standard rfl).mpr (by decide +kernel)

end TagTemplate.Template
