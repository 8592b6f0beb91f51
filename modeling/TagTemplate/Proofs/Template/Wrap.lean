import TagTemplate.Proofs.Expression.Evaluation
import TagTemplate.Proofs.Template.Append
import TagTemplate.Proofs.Template.Failure
import TagTemplate.Proofs.Template.Inline

/-!
# A template inside a tag

Put between the two blocks of a tag, a template is cut and compiled as it is alone: its outputs and
blocks end where they did, the closing block stands behind them as a piece of its own, and no call in
the template is taken for it, if there is no tag of that name.

> `render_wrap`: a template in a tag that writes its element is rendered as it is alone, inside the
> element. Errors come from the arguments first, then from the attributes, then from the template,
> and the tag's own escaper is used for the attributes and the mark only.

The blanks around the arguments move the places in them, which no evaluation shows
(`Argument.evalList_eq_of_readList`).
-/

namespace TagTemplate.Template

open Lexeme (WellQuoted)

variable {env : Environment}

/-- A template in a block tag with arguments. -/
def wrap (name signature body : String) : String :=
  "\x7b% " ++ name ++ " " ++ signature ++ " %\x7d" ++ body ++ "\x7b% end" ++ name ++ " %\x7d"

/-! ## Cutting -/

/-- A block behind a source is one more piece. -/
theorem pieces_append_block {cs content : List Char} (hend : cs.getLast? ≠ some '\x7b')
    (htext : ∀ content, .text content ∈ pieces cs → ∀ m : Mark, ¬ m.opener <:+: content)
    (hquoted : ∀ m content, .marked m content ∈ pieces cs → m ≠ .comment → WellQuoted content)
    (hcontent : WellQuoted content) :
    pieces (cs ++ (Mark.block.opener ++ (content ++ (Mark.block.closer ++ [])))) =
      pieces cs ++ [.marked .block content] := by
  obtain ⟨front, last, hpieces, hmore⟩ := exists_pieces_append hend htext hquoted
  rw [hmore, pieces_block_append hcontent, pieces_nil, hpieces, List.append_assoc]
  rfl

theorem isBlockName_closingName {name : String} (h : isBlockName name = true) :
    isBlockName (closingName name) = true := by
  have hlist : (closingName name).toList = 'e' :: 'n' :: 'd' :: name.toList := by
    rw [closingName, String.toList_append]
    rfl
  have hname := List.all_eq_true.mpr (isBlockNameChar_of_mem h)
  unfold isBlockName
  rw [hlist]
  exact hname

/-! ## Compiling -/

/-- Nodes that were written out call tags of the environment. -/
theorem Linear.exists_tag_of_calls {nodes : List Node} {parts : List Part}
    (h : Linear env nodes parts) :
    ∀ node ∈ nodes, ∀ name, node.Calls name → ∃ tag, env.tag? name = some tag := by
  induction h with
  | nil => exact fun node hnode => absurd hnode List.not_mem_nil
  | text hrest ih => exact List.forall_mem_cons.mpr ⟨fun _ h => h.elim, ih⟩
  | output hread hrest ih => exact List.forall_mem_cons.mpr ⟨fun _ h => h.elim, ih⟩
  | inline hhead htag hinline hargs hrest ih =>
    refine List.forall_mem_cons.mpr ⟨?_, ih⟩
    rintro name rfl
    exact ⟨_, htag⟩
  | block hhead htag hblock hargs hbody hcalls hcloser hclosing hrest ihbody ih =>
    refine List.forall_mem_cons.mpr ⟨?_, ih⟩
    rintro name rfl
    exact ⟨_, htag⟩

theorem renderNodes_singleton (scope : Scope) (node : Node) :
    renderNodes scope [node] = renderNode scope node := by
  rw [renderNodes, renderNodes]
  cases renderNode scope node with
  | error e => rfl
  | ok text => exact congrArg Except.ok String.append_empty

/-- A template in a tag is compiled as it is alone, and is the body of the one call, if no call in it
has the name that closes the tag. -/
theorem compile_around {tag : Tag} {name signature body : String} {args : List Argument}
    {nodes : List Node} (hname : isBlockName name = true) (htag : env.tag? name = some tag)
    (hblock : tag.definition.isBlock = true) (hargs : Argument.readList signature = .ok args)
    (hbody : env.compile body = .ok nodes) (hend : body.toList.getLast? ≠ some '\x7b')
    (htext : ∀ content, .text content ∈ pieces body.toList → ∀ m : Mark, ¬ m.opener <:+: content)
    (hquoted : ∀ m content, .marked m content ∈ pieces body.toList → m ≠ .comment →
      WellQuoted content)
    (hdirect : ∀ node ∈ nodes, ¬ node.Calls (closingName name)) :
    ∃ args', Argument.readList (" " ++ (signature ++ " ")) = .ok args' ∧
      args'.map Argument.placeless = args.map Argument.placeless ∧
      env.compile (wrap name signature body) = .ok [.call tag ⟨name, args', some nodes⟩] := by
  obtain ⟨args', hargs', hplaceless⟩ := Argument.readList_between " " " "
    Lexeme.isGap_of_mem_blank Lexeme.isGap_of_mem_blank hargs
  refine ⟨args', hargs', hplaceless, ?_⟩
  obtain ⟨offset, hhead, hheadQuoted⟩ := exists_blockHead hname hargs'
  have hnothing : Argument.readList (" " ++ "") = .ok [] := rfl
  obtain ⟨closerOffset, hcloser, hcloserQuoted⟩ :=
    exists_blockHead (isBlockName_closingName hname) hnothing
  have hsource : (wrap name signature body).toList =
      Mark.block.opener ++ (blockContent name (signature ++ " ") ++ (Mark.block.closer ++
        (body.toList ++ (Mark.block.opener ++
          (blockContent (closingName name) "" ++ (Mark.block.closer ++ [])))))) := by
    simp only [wrap, closingName, blockContent, String.toList_append, List.append_assoc,
      List.cons_append]
    rfl
  rw [compile_eq_ok_iff_pieces, hsource, pieces_block_append hheadQuoted,
    pieces_append_block hend htext hquoted hcloserQuoted, List.filterMap_cons,
    List.filterMap_append]
  exact .block hhead htag hblock hargs' (compile_eq_ok_iff_pieces.mp hbody) hdirect hcloser rfl .nil

section Wrap

variable {tag : Tag} {name signature body : String} {args : List Argument} {nodes : List Node}
  (hname : isBlockName name = true) (htag : env.tag? name = some tag)
  (hblock : tag.definition.isBlock = true) (hfree : env.tag? (closingName name) = none)
  (hargs : Argument.readList signature = .ok args) (hbody : env.compile body = .ok nodes)
  (hend : body.toList.getLast? ≠ some '\x7b')
  (htext : ∀ content, .text content ∈ pieces body.toList → ∀ m : Mark, ¬ m.opener <:+: content)
  (hclosers : ∀ head ∈ closers env [] (Part.ofSource body), head.IsBare)
include hname htag hblock hfree hargs hbody hend htext hclosers

/-- No call has the name that closes the tag if there is no tag of that name. -/
theorem compile_wrap :
    ∃ args', Argument.readList (" " ++ (signature ++ " ")) = .ok args' ∧
      args'.map Argument.placeless = args.map Argument.placeless ∧
      env.compile (wrap name signature body) = .ok [.call tag ⟨name, args', some nodes⟩] := by
  have hlinear := linear_of_compile hbody
  have hquoted := (hlinear.isWellQuoted [] [] (fun _ h => by cases h)
    (by rwa [List.append_nil])).1
  refine compile_around hname htag hblock hargs hbody hend htext
    (fun m content hmem hm => wellQuoted_of_mem_pieces hquoted hmem hm) ?_
  intro node hnode hcalls
  obtain ⟨other, hother⟩ := hlinear.exists_tag_of_calls node hnode _ hcalls
  rw [hfree] at hother
  cases hother

/-- A template in a tag that writes its element, as one sequence: the arguments are evaluated and
taken for attributes, the template is rendered as it is alone, and only the attributes and the mark
are made with the tag's own escaper, if it has one. -/
theorem render_wrap (husual : tag.IsUsual) {escaper : Escaper}
    (hescaper : env.escaper = some escaper) (locals : Value) :
    env.render (wrap name signature body) locals = (do
      let values ← Argument.evalList ⟨env, locals, escaper⟩ args
      let items ← refused (Attribute.Item.ofValues values)
      let content ← env.render body locals
      let own := tag.escaper.getD escaper
      pure (own.markSafe
        (elementText tag.definition.element.text (Attribute.write own items) content)).text) := by
  obtain ⟨args', hargs', hplaceless, hcompile⟩ :=
    compile_wrap hname htag hblock hfree hargs hbody hend htext hclosers
  have hvalues : Argument.evalList ⟨env, locals, escaper⟩ args' =
      Argument.evalList ⟨env, locals, escaper⟩ args :=
    Argument.evalList_eq_of_readList hargs' hargs hplaceless
  have hnodes : ∀ nodes, env.renderNodes nodes locals =
      renderNodes ⟨env, locals, escaper⟩ nodes := by
    intro nodes
    rw [Environment.renderNodes, hescaper]
  rw [render_of_compile hcompile, render_of_compile hbody, hnodes, hnodes, renderNodes_singleton,
    renderNode_call husual, hvalues]
  rfl

end Wrap

/-- Writes a text in capital letters, and puts the markup that it vouches for in brackets. -/
def capitals : Escaper where
  escape text := String.ofList (text.toList.map Char.toUpper)
  markSafe markup := ⟨"[" ++ markup ++ "]"⟩

/-- A block tag with an escaper of its own. -/
def loudTag : Tag :=
  Tag.ofDefinition ⟨⟨"loud", by decide⟩, ⟨"em", by decide⟩, true⟩ (some capitals)

/-- An apostrophe, which closes no string, and data. -/
def plainBody : String :=
  "it's \x7b\x7bx\x7d\x7d"

theorem ofSource_plainBody : Part.ofSource plainBody = [.text "it's ", .output "x" 7] := by
  decide +kernel

theorem compile_plainBody (env : Environment) :
    env.compile plainBody =
      .ok [.text "it's ", .output (.node ⟨"x", lineSpan 0 1⟩ [] .path [] (lineSpan 0 1))] := by
  refine compile_of_linear ?_
  rw [ofSource_plainBody]
  exact .text (.output rfl .nil)

/-- The attributes are in capitals and the element in brackets, but the data is escaped for markup. -/
theorem render_loud :
    (Environment.standard.addTag loudTag).render (wrap "loud" "t='a<b'" plainBody)
        (.map [("x", .text "<p")]) =
      .ok "[<em T=\"A<B\">it's &lt;p</em>]" := by
  have htag : (Environment.standard.addTag loudTag).tag? "loud" = some loudTag := rfl
  have hfree : (Environment.standard.addTag loudTag).tag? (closingName "loud") = none := rfl
  have hargs : Argument.readList "t='a<b'" =
      .ok [⟨some ⟨"t", lineSpan 0 1⟩, .node ⟨"a<b", lineSpan 2 7⟩ [] .text []
        (lineSpan 2 7), lineSpan 0 7⟩] := rfl
  have htext : ∀ content, .text content ∈ pieces plainBody.toList →
      ∀ m : Mark, ¬ m.opener <:+: content := by
    have hpieces : pieces plainBody.toList = [.text "it's ".toList, .marked .output ['x']] := by
      decide +kernel
    rw [hpieces]
    intro content hmem m
    cases List.mem_cons.mp hmem with
    | inl heq =>
      cases heq
      cases m <;> decide +kernel
    | inr hmem => cases List.mem_singleton.mp hmem
  have hclosers : ∀ head ∈ closers (Environment.standard.addTag loudTag) []
      (Part.ofSource plainBody), head.IsBare := by
    rw [ofSource_plainBody]
    exact fun head hhead => absurd hhead List.not_mem_nil
  rw [render_wrap (by decide) htag rfl hfree hargs (compile_plainBody _) (by decide) htext hclosers
    (Tag.isUsual_ofDefinition _ _) rfl, render_of_compile (compile_plainBody _)]
  rfl

end TagTemplate.Template
