import TagTemplate.Proofs.Expression.Alike
import TagTemplate.Proofs.Template.BlockHead
import TagTemplate.Proofs.Template.Pieces
import TagTemplate.Proofs.Template.Sequence

/-!
# The end of a block

Whatever is read as an argument list has its quotes in string literals and no percent sign outside
of them. So a block with these arguments ends where it was written to end, and what is behind it is
cut as if it stood alone.

> `compile_inline_append`: an inline tag with readable arguments, and behind it any source that
> compiles, compile to the call of the tag and the nodes of that source.
-/

namespace TagTemplate.Template

/-- A block with well-quoted content is the first piece, and the pieces of the rest follow. -/
theorem pieces_block_append {content : List Char} (h : Lexeme.WellQuoted content)
    (rest : List Char) :
    pieces (Mark.block.opener ++ (content ++ (Mark.block.closer ++ rest))) =
      .marked .block content :: pieces rest := by
  have hsplit := splitOutsideStrings_of_not_closesIn h (not_closesIn_block h) rest
  exact pieces_opener_append (splitAtCloser_of_splitOutsideStrings (by decide) hsplit)

/-- The content of a block: a name and arguments, with a blank in front of each. -/
def blockContent (name args : String) : List Char :=
  ' ' :: (name.toList ++ ' ' :: args.toList)

/-- The name is split off, and the blank behind it is read with the arguments. -/
theorem exists_blockHead {name args : String} {values : List Argument}
    (hname : isBlockName name = true) (hargs : Argument.readList (" " ++ args) = .ok values) :
    ∃ offset, BlockHead.read? (String.ofList (blockContent name args)) =
        some ⟨name, " " ++ args, offset⟩ ∧
      Lexeme.WellQuoted (blockContent name args) := by
  have hblank : ∀ c, (" " ++ args).toList.head? = some c → isBlockNameChar c = false := by
    intro c hc
    rw [String.toList_append] at hc
    cases hc
    rfl
  have hcontent : (" " ++ (name ++ (" " ++ args))).toList = blockContent name args := by
    simp only [String.toList_append]
    rfl
  obtain ⟨offset, hhead⟩ := BlockHead.read?_append " "
    (fun c hc => by cases List.mem_singleton.mp hc; rfl) hname hblank
  have hquoted := BlockHead.wellQuoted_of_read? hhead (Argument.wellQuoted_of_readList hargs)
  rw [hcontent] at hquoted
  refine ⟨offset, ?_, hquoted⟩
  rw [← hcontent, String.ofList_toList, hhead]

/-- An inline tag in front of a source is one more node. The blank behind the name is read with the
arguments, and changes nothing but where they stand. -/
theorem compile_inline_append {env : Environment} {tag : Tag} {name signature rest : String}
    {args : List Argument} {nodes : List Node} (hname : isBlockName name = true)
    (htag : env.tag? name = some tag) (hinline : tag.definition.isBlock = false)
    (hargs : Argument.readList signature = .ok args) (hrest : env.compile rest = .ok nodes) :
    ∃ args', Argument.readList (" " ++ signature) = .ok args' ∧
      args'.map Argument.placeless = args.map Argument.placeless ∧
      env.compile ("\x7b% " ++ name ++ " " ++ signature ++ "%\x7d" ++ rest) =
        .ok (.call tag ⟨name, args', none⟩ :: nodes) := by
  obtain ⟨args', hargs', hplaceless⟩ :=
    Argument.readList_append " " Lexeme.isGap_of_mem_blank hargs
  refine ⟨args', hargs', hplaceless, ?_⟩
  obtain ⟨offset, hhead, hquoted⟩ := exists_blockHead hname hargs'
  have hsource : ("\x7b% " ++ name ++ " " ++ signature ++ "%\x7d" ++ rest).toList =
      Mark.block.opener ++ (blockContent name signature ++ (Mark.block.closer ++ rest.toList)) := by
    simp only [blockContent, String.toList_append, List.append_assoc, List.cons_append]
    rfl
  rw [compile_eq_ok_iff_pieces, hsource, pieces_block_append hquoted]
  exact .inline hhead htag hinline hargs' (compile_eq_ok_iff_pieces.mp hrest)

/-- An inline tag. -/
def iconTag : Tag :=
  Tag.ofDefinition ⟨⟨"icon", by decide⟩, ⟨"i", by decide⟩, false⟩ none

/-- Arguments with closers, an opener and both quotes in their strings. -/
def quotedArguments : String :=
  "'%\x7d \\'\x7b%' alt=\"it's \x7d\x7d\""

/-- They end where they end, also in front of a text that would close a block. -/
theorem compile_quotedArguments :
    ∃ args args', Argument.readList quotedArguments = .ok args ∧
      Argument.readList (" " ++ quotedArguments) = .ok args' ∧
      args'.map Argument.placeless = args.map Argument.placeless ∧
      (Environment.standard.addTag iconTag).compile
          ("\x7b% " ++ "icon" ++ " " ++ quotedArguments ++ "%\x7d" ++ "it's %\x7d") =
        .ok [.call iconTag ⟨"icon", args', none⟩, .text "it's %\x7d"] := by
  have hrest : (Environment.standard.addTag iconTag).compile "it's %\x7d" =
      .ok [.text "it's %\x7d"] := by
    have hparts : Part.ofSource "it's %\x7d" = [.text "it's %\x7d"] := by
      decide +kernel
    refine compile_of_linear ?_
    rw [hparts]
    exact .text .nil
  have hargs : ∃ args, Argument.readList quotedArguments = .ok args := ⟨_, rfl⟩
  have htag : (Environment.standard.addTag iconTag).tag? "icon" = some iconTag := rfl
  obtain ⟨args, hargs⟩ := hargs
  obtain ⟨args', hargs', hplaceless, hcompile⟩ :=
    compile_inline_append (by decide) htag rfl hargs hrest
  exact ⟨args, args', hargs, hargs', hplaceless, hcompile⟩

end TagTemplate.Template
