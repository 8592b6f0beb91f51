import TagTemplate.Proofs.Template.Inline
import TagTemplate.Tag.Definition

/-!
# Names that a template can call

The name of a tag may have dashes (`isElementName`), but the name that is split off a block ends at
the first of them. So a tag with a dash in its name is registered, and can be invoked by itself, but
no template calls it.

> `compile_inline_iff`: a block with the name of an inline tag and readable arguments compiles to a
> call by that name exactly if the name has no dash.
-/

namespace TagTemplate.Template

/-- What can name a tag can name a block, except for dashes. -/
theorem isBlockName_iff {name : String} (h : isElementName name = true) :
    isBlockName name = true ↔ '-' ∉ name.toList := by
  unfold isElementName at h
  unfold isBlockName
  cases hcs : name.toList with
  | nil =>
    rw [hcs] at h
    cases h
  | cons c cs =>
    rw [hcs] at h
    obtain ⟨hstart, hinner⟩ := Bool.and_eq_true_iff.mp h
    dsimp only
    rw [hstart, Bool.true_and, List.all_eq_true, List.mem_cons, not_or]
    constructor
    · intro hall
      refine ⟨?_, fun hdash => absurd (hall _ hdash) (by decide)⟩
      rintro rfl
      exact absurd hstart (by decide)
    · rintro ⟨-, hdash⟩ d hd
      have hd' := List.all_eq_true.mp hinner d hd
      rw [Bool.or_eq_true, beq_iff_eq] at hd'
      rcases hd' with hchar | rfl
      · exact hchar
      · exact absurd hd hdash

/-- The name of a call was split off a block. -/
theorem Linear.no_dash_of_call {env : Environment} {tag : Tag}
    {invocation : Invocation (List Argument) (List Node)} {nodes : List Node} {parts : List Part}
    (h : Linear env (.call tag invocation :: nodes) parts) : '-' ∉ invocation.name.toList := by
  have hchars : ∀ {content : String} {head : BlockHead}, BlockHead.read? content = some head →
      '-' ∉ head.name.toList := by
    intro content head hhead hdash
    obtain ⟨_, -, -, -, hname⟩ := BlockHead.source_of_read? hhead
    exact absurd (hname _ hdash) (by decide)
  cases h with
  | inline hhead => exact hchars hhead
  | block hhead => exact hchars hhead

/-- A block at the beginning has the name of a tag. -/
theorem Linear.exists_tag_of_block {env : Environment} {content : String} {offset : Nat}
    {nodes : List Node} {rest : List Part} (h : Linear env nodes (.block content offset :: rest)) :
    ∃ head tag, BlockHead.read? content = some head ∧ env.tag? head.name = some tag := by
  cases h with
  | inline hhead htag => exact ⟨_, _, hhead, htag⟩
  | block hhead htag => exact ⟨_, _, hhead, htag⟩

/-- A block with the name of an inline tag is a call of it unless the name has a dash. The blanks
around the arguments change nothing but where they stand. -/
theorem compile_inline_iff {env : Environment} {tag : Tag} {name signature : String}
    {args : List Argument} (hname : isElementName name = true) (htag : env.tag? name = some tag)
    (hinline : tag.definition.isBlock = false) (hargs : Argument.readList signature = .ok args) :
    (∃ args', args'.map Argument.placeless = args.map Argument.placeless ∧
      env.compile ("\x7b% " ++ name ++ " " ++ signature ++ " %\x7d") =
        .ok [.call tag ⟨name, args', none⟩]) ↔ '-' ∉ name.toList := by
  constructor
  · rintro ⟨args', -, hcompile⟩
    exact (linear_of_compile hcompile).no_dash_of_call
  · intro hdash
    obtain ⟨args', hargs', hplaceless⟩ := Argument.readList_between " " " "
      Lexeme.isGap_of_mem_blank Lexeme.isGap_of_mem_blank hargs
    obtain ⟨offset, hhead, hquoted⟩ := exists_blockHead ((isBlockName_iff hname).mpr hdash) hargs'
    have hsource : ("\x7b% " ++ name ++ " " ++ signature ++ " %\x7d").toList =
        Mark.block.opener ++
          (blockContent name (signature ++ " ") ++ (Mark.block.closer ++ [])) := by
      simp only [blockContent, String.toList_append, List.append_assoc, List.cons_append]
      rfl
    refine ⟨args', hplaceless, ?_⟩
    rw [compile_eq_ok_iff_pieces, hsource, pieces_block_append hquoted, pieces_nil]
    exact .inline hhead htag hinline hargs' .nil

/-- A tag without a dash is called, with a keyword and a closer in a string. -/
theorem compile_icon_blank :
    ∃ args, Argument.readList "a=1 '%\x7d'" = .ok args ∧
      ∃ args', args'.map Argument.placeless = args.map Argument.placeless ∧
        (Environment.standard.addTag iconTag).compile
            ("\x7b% " ++ "icon" ++ " " ++ "a=1 '%\x7d'" ++ " %\x7d") =
          .ok [.call iconTag ⟨"icon", args', none⟩] := by
  have htag : (Environment.standard.addTag iconTag).tag? "icon" = some iconTag := rfl
  obtain ⟨args, hargs⟩ : ∃ args, Argument.readList "a=1 '%\x7d'" = .ok args := ⟨_, rfl⟩
  exact ⟨args, hargs, (compile_inline_iff (by decide) htag rfl hargs).mpr (by decide)⟩

/-- An inline tag with a dash in its name. -/
def widgetTag : Tag :=
  Tag.ofDefinition ⟨⟨"my-widget", by decide⟩, ⟨"my-widget", by decide⟩, false⟩ none

/-- It is registered under its name, but the block is taken for one of another tag. -/
theorem compile_widget :
    (Environment.standard.addTag widgetTag).tag? "my-widget" = some widgetTag ∧
      widgetTag.definition.isBlock = false ∧ Argument.readList "" = .ok [] ∧
      ∀ nodes, (Environment.standard.addTag widgetTag).compile
        ("\x7b% " ++ "my-widget" ++ " " ++ "" ++ " %\x7d") ≠ .ok nodes := by
  refine ⟨rfl, rfl, rfl, fun nodes hcompile => ?_⟩
  have hparts : Part.ofSource ("\x7b% " ++ "my-widget" ++ " " ++ "" ++ " %\x7d") =
      [.block " my-widget  " 2] := by
    decide +kernel
  have hhead : BlockHead.read? " my-widget  " = some ⟨"my", "-widget  ", 3⟩ := by decide
  have hnone : (Environment.standard.addTag widgetTag).tag? "my" = none := rfl
  have hlinear := linear_of_compile hcompile
  rw [hparts] at hlinear
  obtain ⟨head, tag, hread, htag⟩ := hlinear.exists_tag_of_block
  cases hhead.symm.trans hread
  cases hnone.symm.trans htag

end TagTemplate.Template
