import TagTemplate.Proofs.Expression.Takes
import TagTemplate.Proofs.Template.BlockHead
import TagTemplate.Proofs.Template.Markup
import TagTemplate.Proofs.Template.Pieces
import TagTemplate.Proofs.Template.Sequence

/-!
# One template behind another

The end of a piece is looked for up to the end of the whole source, so what is behind a template
could change how it is cut. In a template that compiles it cannot: outputs hold expressions and
blocks hold arguments, which are well quoted. The exceptions are blocks that close a body, of which
only the name is read (`closers`), and texts that could go on as a piece.

> `render_append`: a template renders in front of another as it does alone, and so does the other
> one behind it.
-/

namespace TagTemplate.Template

open Lexeme (WellQuoted)

variable {env : Environment}

/-! ## Blocks that close a body -/

/-- The heads of the blocks that close a body. `awaited` are the names that close the bodies in
which the parts begin, the innermost first. A block with the first of these names closes even if
there is a tag of that name. -/
def closers (env : Environment) : (awaited : List String) → List Part → List BlockHead
  | _, [] => []
  | awaited, .block content _ :: rest =>
    match BlockHead.read? content with
    | none => closers env awaited rest
    | some head =>
      if awaited.head? = some head.name then head :: closers env awaited.tail rest
      else match env.tag? head.name with
        | none => closers env awaited rest
        | some tag =>
          if tag.definition.isBlock then closers env (closingName head.name :: awaited) rest
          else closers env awaited rest
  | awaited, .text _ :: rest => closers env awaited rest
  | awaited, .output _ _ :: rest => closers env awaited rest

section Closers

variable {awaited : List String} {content : String} {offset : Nat} {head : BlockHead}
  {rest : List Part} (hhead : BlockHead.read? content = some head)
include hhead

theorem closers_closing (hclosing : awaited.head? = some head.name) :
    closers env awaited (.block content offset :: rest) =
      head :: closers env awaited.tail rest := by
  rw [closers, hhead]
  exact if_pos hclosing

theorem closers_call (hother : awaited.head? ≠ some head.name) {tag : Tag}
    (htag : env.tag? head.name = some tag) :
    closers env awaited (.block content offset :: rest) =
      if tag.definition.isBlock then closers env (closingName head.name :: awaited) rest
      else closers env awaited rest := by
  rw [closers, hhead]
  dsimp only
  rw [if_neg hother, htag]

end Closers

/-- Is the content of the part well quoted? -/
def Part.IsWellQuoted : Part → Prop
  | .text _ => True
  | .output content _ => WellQuoted content.toList
  | .block content _ => WellQuoted content.toList

/-- The head has nothing but blanks behind the name. -/
def BlockHead.IsBare (head : BlockHead) : Prop :=
  ∀ c ∈ head.args.toList, Text.isBlank c = true

instance (head : BlockHead) : Decidable head.IsBare :=
  List.decidableBAll (Text.isBlank · = true) head.args.toList

theorem BlockHead.wellQuoted_of_isBare {content : String} {head : BlockHead}
    (hhead : read? content = some head) (h : head.IsBare) : WellQuoted content.toList :=
  wellQuoted_of_read? hhead (Lexeme.wellQuoted_of_isPlain fun c hc => isPlain_of_isBlank (h c hc))

/-- The parts of nodes are well quoted if blocks that close a body have nothing but a name. The
induction is on how the nodes are written out, inside any bodies and in front of any parts. -/
theorem Linear.isWellQuoted {nodes : List Node} {parts : List Part} (h : Linear env nodes parts) :
    ∀ (awaited : List String) (after : List Part), Avoids awaited.head? nodes →
      (∀ head ∈ closers env awaited (parts ++ after), head.IsBare) →
        (∀ p ∈ parts, p.IsWellQuoted) ∧ ∀ head ∈ closers env awaited after, head.IsBare := by
  induction h with
  | nil =>
    intro awaited after _ hbare
    exact ⟨fun p hp => absurd hp List.not_mem_nil, hbare⟩
  | text hrest ih =>
    intro awaited after hdirect hbare
    obtain ⟨hparts, hafter⟩ := ih awaited after hdirect.tail hbare
    exact ⟨List.forall_mem_cons.mpr ⟨trivial, hparts⟩, hafter⟩
  | output hread hrest ih =>
    intro awaited after hdirect hbare
    obtain ⟨hparts, hafter⟩ := ih awaited after hdirect.tail hbare
    exact ⟨List.forall_mem_cons.mpr ⟨Expr.wellQuoted_of_read hread, hparts⟩, hafter⟩
  | inline hhead htag hinline hargs hrest ih =>
    intro awaited after hdirect hbare
    rw [List.cons_append, closers_call hhead hdirect.ne_of_call htag,
      if_neg (by rw [hinline]; exact Bool.false_ne_true)] at hbare
    obtain ⟨hparts, hafter⟩ := ih awaited after hdirect.tail hbare
    have hquoted := BlockHead.wellQuoted_of_read? hhead (Argument.wellQuoted_of_readList hargs)
    exact ⟨List.forall_mem_cons.mpr ⟨hquoted, hparts⟩, hafter⟩
  | @block content closer offset closerOffset head closerHead tag args body nodes inner parts hhead
      htag hblock hargs hbody hcalls hcloser hclosing hrest ihbody ih =>
    intro awaited after hdirect hbare
    rw [List.cons_append, closers_call hhead hdirect.ne_of_call htag, if_pos hblock,
      List.append_assoc, List.cons_append] at hbare
    -- the body ends at its closer, which is the first of the closers that follow it
    obtain ⟨hinner, hbare⟩ := ihbody (closingName head.name :: awaited) _
      (fun name hname => Option.some.inj hname ▸ hcalls) hbare
    have hcloses : (closingName head.name :: awaited).head? = some closerHead.name :=
      congrArg some hclosing.symm
    rw [closers_closing hcloser hcloses] at hbare
    obtain ⟨hclose, hbare⟩ := List.forall_mem_cons.mp hbare
    obtain ⟨hparts, hafter⟩ := ih awaited after hdirect.tail hbare
    refine ⟨List.forall_mem_cons.mpr ⟨?_, fun p hp => ?_⟩, hafter⟩
    · exact BlockHead.wellQuoted_of_read? hhead (Argument.wellQuoted_of_readList hargs)
    · rcases List.mem_append.mp hp with hp | hp
      · exact hinner p hp
      · rcases List.mem_cons.mp hp with rfl | hp
        · exact BlockHead.wellQuoted_of_isBare hcloser hclose
        · exact hparts p hp

theorem wellQuoted_of_mem_pieces {source : String}
    (h : ∀ p ∈ Part.ofSource source, p.IsWellQuoted) {m : Mark} {content : List Char}
    (hmem : .marked m content ∈ pieces source.toList) (hm : m ≠ .comment) :
    WellQuoted content := by
  have hparts := unplaced_ofPieces 0 (pieces source.toList)
  -- the part of the piece, but for its offset, is a part of the source
  have hpart : ∀ q, (Piece.marked m content).part? = some q →
      ∃ p ∈ Part.ofSource source, p.unplaced = q := by
    intro q hq
    have hmap : q ∈ (Part.ofSource source).map Part.unplaced := by
      rw [Part.ofSource, hparts]
      exact List.mem_filterMap.mpr ⟨_, hmem, hq⟩
    exact List.mem_map.mp hmap
  cases m with
  | comment => exact absurd rfl hm
  | output =>
    obtain ⟨p, hp, hunplaced⟩ := hpart _ rfl
    obtain ⟨offset, rfl⟩ := unplaced_eq_output_iff.mp hunplaced
    have hquoted : WellQuoted (String.ofList content).toList := h _ hp
    rwa [String.toList_ofList] at hquoted
  | block =>
    obtain ⟨p, hp, hunplaced⟩ := hpart _ rfl
    obtain ⟨offset, rfl⟩ := unplaced_eq_block_iff.mp hunplaced
    have hquoted : WellQuoted (String.ofList content).toList := h _ hp
    rwa [String.toList_ofList] at hquoted

/-! ## Rendering one after another -/

theorem renderNodes_append (scope : Scope) (first second : List Node) :
    renderNodes scope (first ++ second) = (do
      let a ← renderNodes scope first
      let b ← renderNodes scope second
      pure (a ++ b)) := by
  induction first with
  | nil =>
    rw [List.nil_append, renderNodes]
    cases renderNodes scope second with
    | error e => rfl
    | ok b =>
      show Except.ok b = .ok ("" ++ b)
      rw [String.empty_append]
  | cons node first ih =>
    rw [List.cons_append, renderNodes, renderNodes, ih]
    cases renderNode scope node with
    | error e => rfl
    | ok text =>
      cases renderNodes scope first with
      | error e => rfl
      | ok a =>
        cases renderNodes scope second with
        | error e => rfl
        | ok b =>
          show Except.ok (text ++ (a ++ b)) = .ok (text ++ a ++ b)
          rw [String.append_assoc]

theorem renderNodes_text_cons (scope : Scope) (content : String) (nodes : List Node) :
    renderNodes scope (.text content :: nodes) = (renderNodes scope nodes).map (content ++ ·) := by
  rw [renderNodes, renderNode]
  cases renderNodes scope nodes <;> rfl

/-- A text on its own is rendered as it stands, and calls no tag. -/
theorem exists_linear_textPieces (env : Environment) (cs : List Char) :
    ∃ nodes, Linear env nodes ((textPieces cs).filterMap Piece.part?) ∧
      (∀ scope, renderNodes scope nodes = .ok (String.ofList cs)) ∧
        ∀ node ∈ nodes, ∀ name, ¬ node.Calls name := by
  by_cases hcs : cs = []
  · subst hcs
    exact ⟨[], .nil, fun _ => rfl, fun _ hnode => absurd hnode List.not_mem_nil⟩
  · rw [textPieces_of_ne_nil hcs]
    refine ⟨[.text (String.ofList cs)], .text .nil, fun scope => ?_, fun node hnode name => ?_⟩
    · rw [renderNodes_text_cons, renderNodes]
      exact congrArg Except.ok String.append_empty
    · cases List.mem_singleton.mp hnode
      exact id

/-- A text in front of pieces is rendered in front of their nodes. -/
theorem exists_linear_pushText {nodes : List Node} (cs : List Char) {ps : List Piece}
    (h : Linear env nodes (ps.filterMap Piece.part?)) :
    ∃ pushed, Linear env pushed ((pushText cs ps).filterMap Piece.part?) ∧
      ∀ scope, renderNodes scope pushed =
        (renderNodes scope nodes).map (String.ofList cs ++ ·) := by
  have hfront : ∃ pushed, Linear env pushed ((textPieces cs ++ ps).filterMap Piece.part?) ∧
      ∀ scope, renderNodes scope pushed =
        (renderNodes scope nodes).map (String.ofList cs ++ ·) := by
    obtain ⟨texts, htexts, hrender, -⟩ := exists_linear_textPieces env cs
    refine ⟨texts ++ nodes, ?_, fun scope => ?_⟩
    · rw [List.filterMap_append]
      exact htexts.append h
    · rw [renderNodes_append, hrender]
      cases renderNodes scope nodes <;> rfl
  cases ps with
  | nil => exact hfront
  | cons p ps =>
    cases p with
    | marked m content => exact hfront
    | text content =>
      cases h with
      | @text _ nodes _ hrest =>
        refine ⟨.text (String.ofList (cs ++ content)) :: nodes, .text hrest, fun scope => ?_⟩
        rw [renderNodes_text_cons, renderNodes_text_cons, String.ofList_append]
        cases renderNodes scope nodes with
        | error e => rfl
        | ok text => exact congrArg Except.ok String.append_assoc

/-- A text at the end is rendered behind the nodes in front of it. -/
theorem exists_linear_front {nodes : List Node} {front : List Piece} {last : List Char}
    (h : Linear env nodes ((front ++ textPieces last).filterMap Piece.part?)) :
    ∃ before, Linear env before (front.filterMap Piece.part?) ∧
      ∀ scope, renderNodes scope nodes =
        (renderNodes scope before).map (· ++ String.ofList last) := by
  rw [List.filterMap_append] at h
  by_cases hlast : last = []
  · subst hlast
    have hnone : (textPieces []).filterMap Piece.part? = [] := rfl
    rw [hnone, List.append_nil] at h
    refine ⟨nodes, h, fun scope => ?_⟩
    cases renderNodes scope nodes with
    | error e => rfl
    | ok text => exact congrArg Except.ok String.append_empty.symm
  · rw [textPieces_of_ne_nil hlast] at h
    obtain ⟨before, rfl, hbefore⟩ := Linear.of_append_text h
    refine ⟨before, hbefore, fun scope => ?_⟩
    rw [renderNodes_append, renderNodes_text_cons, renderNodes]
    cases renderNodes scope before with
    | error e => rfl
    | ok text =>
      show Except.ok (text ++ (String.ofList last ++ "")) = .ok (text ++ String.ofList last)
      rw [String.append_empty]

/-! ## Templates -/

theorem render_of_compile {source : String} {nodes : List Node}
    (h : env.compile source = .ok nodes) (locals : Value) :
    env.render source locals = env.renderNodes nodes locals := by
  rw [Environment.render, h]
  rfl

/-- Two templates one after the other. The first must not end in the middle of an opener, nor have
openers in its texts, and the blocks that close its bodies have nothing but a name. -/
theorem render_append {a b : String} {first second : List Node}
    (ha : env.compile a = .ok first) (hb : env.compile b = .ok second)
    (hend : a.toList.getLast? ≠ some '\x7b')
    (htext : ∀ content, .text content ∈ pieces a.toList → ∀ m : Mark, ¬ m.opener <:+: content)
    (hclosers : ∀ head ∈ closers env [] (Part.ofSource a), head.IsBare) :
    (∃ nodes, env.compile (a ++ b) = .ok nodes) ∧
      ∀ locals, env.render (a ++ b) locals = (do
        let x ← env.render a locals
        let y ← env.render b locals
        pure (x ++ y)) := by
  have hlinear := linear_of_compile ha
  have hquoted := hlinear.isWellQuoted [] [] (fun _ hname => by cases hname)
    (by rwa [List.append_nil])
  obtain ⟨front, last, hpieces, hmore⟩ := exists_pieces_append hend htext
    fun m content hmem hm => wellQuoted_of_mem_pieces hquoted.1 hmem hm
  have hfirst := compile_eq_ok_iff_pieces.mp ha
  rw [hpieces] at hfirst
  obtain ⟨before, hbefore, hrenderFirst⟩ := exists_linear_front hfirst
  obtain ⟨pushed, hpushed, hrenderSecond⟩ :=
    exists_linear_pushText last (compile_eq_ok_iff_pieces.mp hb)
  have hcompile : env.compile (a ++ b) = .ok (before ++ pushed) := by
    rw [compile_eq_ok_iff_pieces, String.toList_append, hmore, List.filterMap_append]
    exact hbefore.append hpushed
  refine ⟨⟨_, hcompile⟩, fun locals => ?_⟩
  rw [render_of_compile hcompile, render_of_compile ha, render_of_compile hb]
  unfold Environment.renderNodes
  cases env.escaper with
  | none => rfl
  | some escaper =>
    dsimp only
    rw [renderNodes_append, hrenderFirst, hrenderSecond]
    -- the text between them belongs to the first and is rendered with the second
    cases renderNodes ⟨env, locals, escaper⟩ before with
    | error e => rfl
    | ok x =>
      cases renderNodes ⟨env, locals, escaper⟩ second with
      | error e => rfl
      | ok y => exact congrArg Except.ok String.append_assoc.symm

/-- A box with a closer in a string, a quote in its body, and text behind it. -/
def quotedBox : String :=
  "\x7b%box t='%\x7d'%\x7dit's \x7b\x7bx\x7d\x7d\x7b% endbox %\x7d, isn't it? "

/-- A template that begins with a closer in quotes. -/
def quotedCloser : String :=
  "'%\x7d' \x7b\x7bx\x7d\x7d"

theorem ofSource_quotedBox :
    Part.ofSource quotedBox =
      .block "box t='%\x7d'" 2 :: ([.text "it's ", .output "x" 21] ++
        .block " endbox " 26 :: [.text ", isn't it? "]) := by
  decide +kernel

theorem compile_quotedBox : ∃ nodes, boxEnvironment.compile quotedBox = .ok nodes := by
  have hhead : BlockHead.read? "box t='%\x7d'" = some ⟨"box", " t='%\x7d'", 3⟩ := by decide
  have hcloser : BlockHead.read? " endbox " = some ⟨"endbox", " ", 7⟩ := by decide
  have hlinear : ∃ nodes, Linear boxEnvironment nodes (Part.ofSource quotedBox) := by
    rw [ofSource_quotedBox]
    refine ⟨_, .block hhead rfl rfl rfl (.text (.output rfl .nil)) ?_ hcloser rfl (.text .nil)⟩
    intro node hnode
    rcases List.mem_cons.mp hnode with rfl | hnode
    · exact id
    · cases List.mem_singleton.mp hnode
      exact id
  obtain ⟨nodes, hlinear⟩ := hlinear
  exact ⟨nodes, compile_of_linear hlinear⟩

theorem compile_quotedCloser : ∃ nodes, boxEnvironment.compile quotedCloser = .ok nodes := by
  have hparts : Part.ofSource quotedCloser = [.text "'%\x7d' ", .output "x" 7] := by
    decide +kernel
  have hlinear : ∃ nodes, Linear boxEnvironment nodes (Part.ofSource quotedCloser) := by
    rw [hparts]
    exact ⟨_, .text (.output rfl .nil)⟩
  obtain ⟨nodes, hlinear⟩ := hlinear
  exact ⟨nodes, compile_of_linear hlinear⟩

/-- The box in front of the closer renders as it does alone. -/
theorem render_quotedBox_append :
    (∃ nodes, boxEnvironment.compile (quotedBox ++ quotedCloser) = .ok nodes) ∧
      ∀ locals, boxEnvironment.render (quotedBox ++ quotedCloser) locals = (do
        let x ← boxEnvironment.render quotedBox locals
        let y ← boxEnvironment.render quotedCloser locals
        pure (x ++ y)) := by
  have hpieces : pieces quotedBox.toList =
      [.marked .block "box t='%\x7d'".toList, .text "it's ".toList, .marked .output ['x'],
        .marked .block " endbox ".toList, .text ", isn't it? ".toList] := by
    decide +kernel
  have htext : ∀ content, .text content ∈ pieces quotedBox.toList →
      ∀ m : Mark, ¬ m.opener <:+: content := by
    rw [hpieces]
    intro content hmem m
    simp only [List.mem_cons, Piece.text.injEq, reduceCtorEq, List.not_mem_nil, false_or,
      or_false] at hmem
    rcases hmem with rfl | rfl <;> cases m <;> decide +kernel
  have hclosers : ∀ head ∈ closers boxEnvironment [] (Part.ofSource quotedBox), head.IsBare := by
    have hall : closers boxEnvironment [] (Part.ofSource quotedBox) = [⟨"endbox", " ", 7⟩] := by
      rw [ofSource_quotedBox]
      rfl
    rw [hall]
    exact List.forall_mem_singleton.mpr (by decide)
  obtain ⟨first, hfirst⟩ := compile_quotedBox
  obtain ⟨second, hsecond⟩ := compile_quotedCloser
  exact render_append hfirst hsecond (by decide) htext hclosers

end TagTemplate.Template
