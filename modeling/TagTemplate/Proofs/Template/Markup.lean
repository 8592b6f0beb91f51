import TagTemplate.Proofs.Expression.SafeText
import TagTemplate.Proofs.Filter.Markup
import TagTemplate.Proofs.Tag.Markup
import TagTemplate.Proofs.Template.Linear
import TagTemplate.Template.Render

/-!
# Data makes no markup

The angle brackets and apostrophes of a rendering come from the source alone: from the texts of
the template and from the elements that its tags write. `skeletonOf` computes them from the compiled
nodes, without any variables.

> `markupOf_render`: in an environment that escapes, a template that does not vouch for anything
> with the filter `safe` has the same markup for any two sets of variables without safe text, and
> that markup is its skeleton.

Safe text is not escaped, so the invariant of a render is that all safe text is clean. It holds of
the variables because they have none, expressions keep it (`Expr.everySafe_eval`) because the
filters do (`Filter.clean_of_builtin`), and it is what outputs and attributes need. The induction is
on how the nodes were written out in the source (`Linear`), which also says that the tags in them
are those of the environment.
-/

namespace TagTemplate

/-- The environment escapes what it renders: it escapes outputs, for markup, it has no filters but
built-in ones, and its tags write their elements and escape like the rest. -/
structure Environment.Escapes (env : Environment) : Prop where
  escaper : env.escaper = some .html
  autoescape : env.config.autoescape = true
  filters : ∀ {name : String} {filter : Filter}, Entries.get? name env.filters = some filter →
    Entries.get? name Filter.builtin = some filter
  tags : ∀ {name : String} {tag : Tag}, env.tag? name = some tag →
    ∃ d, tag = Tag.ofDefinition d none

namespace Template

mutual

/-- The names of all filters in a node satisfy `q`. -/
def Node.EveryFilter (q : String → Prop) : Node → Prop
  | .text _ => True
  | .output value => value.EveryFilter q
  | .call _ ⟨_, args, body⟩ =>
    (∀ a ∈ args, a.value.EveryFilter q) ∧
      match body with
      | some nodes => Node.EveryFilterIn q nodes
      | none => True

/-- The names of all filters in several nodes satisfy `q`. -/
def Node.EveryFilterIn (q : String → Prop) : List Node → Prop
  | [] => True
  | node :: rest => node.EveryFilter q ∧ Node.EveryFilterIn q rest

end

mutual

/-- The markup of a node, whatever the variables are. -/
def Node.skeleton : Node → List Char
  | .text content => Html.markupOf content
  | .output _ => []
  | .call _ ⟨_, _, body⟩ =>
    ['<', '>'] ++ (match body with
      | some nodes => Node.skeletonOf nodes
      | none => []) ++ ['<', '>']

/-- The markup of several nodes. -/
def Node.skeletonOf : List Node → List Char
  | [] => []
  | node :: rest => node.skeleton ++ Node.skeletonOf rest

end

/-! ## Outputs and invocations -/

variable {env : Environment} {locals : Value}

/-- In an environment that escapes, expressions without `safe` keep safe text clean. -/
theorem keeps_of_escapes (henv : env.Escapes)
    (hlocals : locals.EverySafe SafeText.Clean) :
    Scope.Keeps ⟨env, locals, .html⟩ SafeText.Clean (· ≠ "safe") where
  locals := hlocals
  filters := by
    intro name v w args hname hv hargs h
    unfold Environment.applyFilter at h
    split at h
    next filter hfilter => exact Filter.clean_of_builtin (henv.filters hfilter) hname hv hargs h
    next => cases h

theorem clean_outputText (hauto : env.config.autoescape = true) {v : Value}
    (hv : v.EverySafe SafeText.Clean) : Html.Clean (outputText ⟨env, locals, .html⟩ v) := by
  unfold outputText
  split
  · exact hv
  · rw [if_pos hauto]
    exact Html.clean_escape _

/-- Nodes are rendered one after another. -/
theorem renderNodes_cons_eq_ok {scope : Scope} {node : Node} {nodes : List Node} {out : String}
    (h : renderNodes scope (node :: nodes) = .ok out) :
    ∃ text more, renderNode scope node = .ok text ∧ renderNodes scope nodes = .ok more ∧
      out = text ++ more := by
  rw [renderNodes] at h
  obtain ⟨text, htext, h⟩ := bind_eq_ok h
  obtain ⟨more, hmore, h⟩ := bind_eq_ok h
  exact ⟨text, more, htext, hmore, (Except.ok.inj h).symm⟩

/-- A call has the markup of its body between two pairs of angle brackets. -/
theorem markupOf_renderNode_call (henv : env.Escapes) (hlocals : locals.EverySafe SafeText.Clean)
    {name tagName : String} {tag : Tag} (htag : env.tag? tagName = some tag)
    {args : List Argument} (hargs : ∀ a ∈ args, a.value.EveryFilter (· ≠ "safe"))
    {body : Option (List Node)} {out : String}
    (h : renderNode ⟨env, locals, .html⟩ (.call tag ⟨name, args, body⟩) = .ok out) :
    ∃ content, Html.markupOf out = ['<', '>'] ++ Html.markupOf content ++ ['<', '>'] ∧
      match body with
      | some nodes => renderNodes ⟨env, locals, .html⟩ nodes = .ok content
      | none => content = "" := by
  obtain ⟨d, rfl⟩ := henv.tags htag
  rw [renderNode.eq_def] at h
  obtain ⟨values, hvalues, h⟩ := bind_eq_ok h
  obtain ⟨markup, hmarkup, h⟩ := bind_eq_ok h
  cases h
  have hclean := Argument.everySafe_evalList (keeps_of_escapes henv hlocals) hargs hvalues
  obtain ⟨content, hcontent, hout⟩ := Tag.markupOf_invoke hclean (mapError_eq_ok hmarkup)
  refine ⟨content, hout, ?_⟩
  cases body with
  | none => exact (Except.ok.inj hcontent).symm
  | some nodes => exact mapError_eq_ok hcontent

/-! ## Whole templates -/

/-- The induction is on how the nodes are written out in the source. -/
theorem Linear.markupOf_renderNodes {nodes : List Node} {parts : List Part}
    (h : Linear env nodes parts) (henv : env.Escapes)
    (hlocals : locals.EverySafe SafeText.Clean) :
    ∀ {out : String}, Node.EveryFilterIn (· ≠ "safe") nodes →
      renderNodes ⟨env, locals, .html⟩ nodes = .ok out →
        Html.markupOf out = Node.skeletonOf nodes := by
  induction h with
  | nil =>
    intro out _ hrender
    rw [renderNodes] at hrender
    cases hrender
    rfl
  | text hrest ih =>
    intro out hfilters hrender
    obtain ⟨text, more, htext, hmore, rfl⟩ := renderNodes_cons_eq_ok hrender
    rw [renderNode] at htext
    cases htext
    rw [Html.markupOf_append, ih hfilters.2 hmore]
    rfl
  | output hread hrest ih =>
    intro out hfilters hrender
    obtain ⟨text, more, htext, hmore, rfl⟩ := renderNodes_cons_eq_ok hrender
    rw [renderNode] at htext
    obtain ⟨v, hv, rfl⟩ := map_eq_ok htext
    have hclean := Expr.everySafe_eval (keeps_of_escapes henv hlocals) _ hfilters.1 hv
    rw [Html.markupOf_append, ih hfilters.2 hmore, clean_outputText henv.autoescape hclean]
    rfl
  | inline hhead htag hinline hargs hrest ih =>
    intro out hfilters hrender
    obtain ⟨text, more, htext, hmore, rfl⟩ := renderNodes_cons_eq_ok hrender
    obtain ⟨content, hmarkup, rfl⟩ :=
      markupOf_renderNode_call henv hlocals htag hfilters.1.1 htext
    rw [Html.markupOf_append, ih hfilters.2 hmore, hmarkup]
    rfl
  | block hhead htag hblock hargs hbody hdirect hcloser hclosing hrest ihbody ih =>
    intro out hfilters hrender
    obtain ⟨text, more, htext, hmore, rfl⟩ := renderNodes_cons_eq_ok hrender
    obtain ⟨content, hmarkup, hcontent⟩ :=
      markupOf_renderNode_call henv hlocals htag hfilters.1.1 htext
    rw [Html.markupOf_append, ih hfilters.2 hmore, hmarkup, ihbody hfilters.1.2 hcontent]
    rfl

/-- The markup of a rendering is the skeleton of its nodes. -/
theorem markupOf_render_eq_skeletonOf (henv : env.Escapes) {source : String} {nodes : List Node}
    (hcompile : env.compile source = .ok nodes)
    (hfilters : Node.EveryFilterIn (· ≠ "safe") nodes) (hlocals : locals.NoSafe) {out : String}
    (hrender : env.render source locals = .ok out) :
    Html.markupOf out = Node.skeletonOf nodes := by
  unfold Environment.render at hrender
  rw [hcompile] at hrender
  have hnodes : env.renderNodes nodes locals = .ok out := hrender
  unfold Environment.renderNodes at hnodes
  rw [henv.escaper] at hnodes
  exact (linear_of_compile hcompile).markupOf_renderNodes henv hlocals.everySafe hfilters hnodes

/-- Whatever the variables hold, the markup of a rendering is the same: it is the skeleton of the
compiled nodes. -/
theorem markupOf_render (henv : env.Escapes) {source : String} {nodes : List Node}
    (hcompile : env.compile source = .ok nodes)
    (hfilters : Node.EveryFilterIn (· ≠ "safe") nodes) {first second : Value}
    (hfirst : first.NoSafe) (hsecond : second.NoSafe) {a b : String}
    (ha : env.render source first = .ok a) (hb : env.render source second = .ok b) :
    Html.markupOf a = Html.markupOf b ∧ Html.markupOf a = Node.skeletonOf nodes := by
  have hskeleton := markupOf_render_eq_skeletonOf henv hcompile hfilters hfirst ha
  refine ⟨?_, hskeleton⟩
  rw [hskeleton, markupOf_render_eq_skeletonOf henv hcompile hfilters hsecond hb]

/-! ## A box around data -/

/-- A block tag that is written as an element of another name. -/
def boxTag : Tag :=
  Tag.ofDefinition ⟨⟨"box", by decide⟩, ⟨"b", by decide⟩, true⟩ none

/-- The standard environment with this tag. -/
def boxEnvironment : Environment :=
  Environment.standard.addTag boxTag

theorem boxEnvironment_escapes : boxEnvironment.Escapes where
  escaper := rfl
  autoescape := rfl
  filters := id
  tags := by
    intro name tag h
    have hmem := Entries.mem_of_get? h
    cases List.mem_singleton.mp hmem
    exact ⟨_, rfl⟩

/-- A template with data in an output, behind filters that make safe text and keep it, in an
attribute, and in the body of a tag. -/
def boxSource : String :=
  "<p>\x7b\x7bx|escape|upper\x7d\x7d\x7b%box t=x%\x7dit's \x7b\x7bx\x7d\x7d\x7b%endbox%\x7d"

/-- A piece of the first line. -/
def lineSpan (offset stop : Nat) : Span :=
  ⟨⟨offset, 1, offset + 1⟩, stop⟩

/-- What it is compiled into. -/
def boxNodes : List Node :=
  [.text "<p>",
    .output (.node ⟨"x", lineSpan 0 1⟩ [] .path
      [⟨⟨"escape", lineSpan 2 8⟩, [], lineSpan 1 8⟩, ⟨⟨"upper", lineSpan 9 14⟩, [], lineSpan 8 14⟩]
      (lineSpan 0 14)),
    .call boxTag ⟨"box",
      [⟨some ⟨"t", lineSpan 1 2⟩, .node ⟨"x", lineSpan 3 4⟩ [] .path [] (lineSpan 3 4),
        lineSpan 1 4⟩],
      some [.text "it's ", .output (.node ⟨"x", lineSpan 0 1⟩ [] .path [] (lineSpan 0 1))]⟩]

theorem compile_boxSource : boxEnvironment.compile boxSource = .ok boxNodes := by
  refine compile_of_linear ?_
  have hparts : Part.ofSource boxSource =
      .text "<p>" :: .output "x|escape|upper" 5 :: .block "box t=x" 23 ::
        ([.text "it's ", .output "x" 39] ++ [.block "endbox" 44]) := by
    decide +kernel
  have hinner : Linear boxEnvironment
      [.text "it's ", .output (.node ⟨"x", lineSpan 0 1⟩ [] .path [] (lineSpan 0 1))]
      [.text "it's ", .output "x" 39] :=
    .text (.output rfl .nil)
  have hhead : BlockHead.read? "box t=x" = some ⟨"box", " t=x", 3⟩ := by decide
  have hcloser : BlockHead.read? "endbox" = some ⟨"endbox", "", 6⟩ := by decide
  rw [hparts]
  refine .text (.output rfl (.block hhead rfl rfl rfl hinner ?_ hcloser rfl .nil))
  intro node hnode
  rcases List.mem_cons.mp hnode with rfl | hnode
  · exact id
  · cases List.mem_singleton.mp hnode
    exact id

/-- Data that would end the element and data that is plain give the same markup. -/
theorem markupOf_render_boxSource :
    Html.markupOf "<p>&LT;/P&GT;<b t=\"&lt;/p&gt;\">it's &lt;/p&gt;</b>" =
        Html.markupOf "<p>FINE<b t=\"fine\">it's fine</b>" ∧
      Html.markupOf "<p>&LT;/P&GT;<b t=\"&lt;/p&gt;\">it's &lt;/p&gt;</b>" =
        Node.skeletonOf boxNodes := by
  have hfilters : Node.EveryFilterIn (· ≠ "safe") boxNodes := by
    simp [boxNodes, Node.EveryFilterIn, Node.EveryFilter, Expr.EveryFilter, Expr.EveryFilterIn,
      Expr.EveryFilterOf]
  have hmarkup : boxEnvironment.render boxSource (.map [("x", .text "</p>")]) =
      .ok "<p>&LT;/P&GT;<b t=\"&lt;/p&gt;\">it's &lt;/p&gt;</b>" := by
    rw [Environment.render, compile_boxSource]
    rfl
  have hplain : boxEnvironment.render boxSource (.map [("x", .text "fine")]) =
      .ok "<p>FINE<b t=\"fine\">it's fine</b>" := by
    rw [Environment.render, compile_boxSource]
    rfl
  have hlocals : ∀ text, (Value.map [("x", .text text)]).NoSafe := by
    intro text
    simp [Value.NoSafe]
  exact markupOf_render boxEnvironment_escapes compile_boxSource hfilters (hlocals _) (hlocals _)
    hmarkup hplain

end Template

end TagTemplate
