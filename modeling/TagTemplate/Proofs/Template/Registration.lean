import TagTemplate.Proofs.Template.Undefined

/-!
# Adding a tag

The tags of an environment are looked at when a block is read, by the name of the block, and not at
all when nodes are rendered. A block that closes a body is known by its name before any tag is
looked up. So a template that compiles has no use for a name that is not registered, not even as a
closer.

> `render_addTag`: a source that compiles gives the same nodes, and renders the same, when a tag of
> a new name is added.
-/

namespace TagTemplate

namespace Environment

variable {env : Environment} {tag : Tag}

/-- The tags of an environment keep their names when a tag of a new name is added. -/
theorem tag?_addTag (hnew : env.tag? tag.name = none) {name : String} {found : Tag}
    (h : env.tag? name = some found) : (env.addTag tag).tag? name = some found := by
  have hne : name ≠ tag.name := by
    rintro rfl
    rw [hnew] at h
    cases h
  exact (Entries.get?_insert_of_ne tag env.tags hne).trans h

end Environment

/-- What rendering sees of the two scopes is the same. -/
structure Scope.RendersAs (s t : Scope) : Prop where
  agrees : s.Agrees (fun _ => False) t
  locals : t.locals = s.locals
  autoescape : t.env.config.autoescape = s.env.config.autoescape

namespace Template

/-- Nodes are written out the same in an environment with more tags. The name that closes a body is
compared with the names of the calls in it, and with no registered name. -/
theorem Linear.mono {env more : Environment}
    (htags : ∀ {name : String} {tag : Tag}, env.tag? name = some tag → more.tag? name = some tag)
    {nodes : List Node} {parts : List Part} (h : Linear env nodes parts) :
    Linear more nodes parts := by
  induction h with
  | nil => exact .nil
  | text hrest ih => exact .text ih
  | output hread hrest ih => exact .output hread ih
  | inline hhead htag hinline hargs hrest ih =>
    exact .inline hhead (htags htag) hinline hargs ih
  | block hhead htag hblock hargs hbody hcalls hcloser hclosing hrest ihbody ih =>
    exact .block hhead (htags htag) hblock hargs ihbody hcalls hcloser hclosing ih

/-- A source that compiles gives the same nodes when a tag of a new name is added. -/
theorem compile_addTag {env : Environment} {tag : Tag} (hnew : env.tag? tag.name = none)
    {source : String} {nodes : List Node} (h : env.compile source = .ok nodes) :
    (env.addTag tag).compile source = .ok nodes :=
  compile_of_linear ((linear_of_compile h).mono (Environment.tag?_addTag hnew))

/-! ## Rendering -/

variable {s t : Scope}

theorem outputText_eq_of_rendersAs (h : s.RendersAs t) : outputText t = outputText s := by
  funext v
  unfold outputText
  rw [h.autoescape, h.agrees.escaper]

mutual

/-- A node is rendered the same in both scopes, whatever tags it calls. -/
theorem renderNode_eq_of_rendersAs (h : s.RendersAs t) :
    ∀ (node : Node), renderNode t node = renderNode s node
  | .text content => by
    rw [renderNode, renderNode]
  | .output value => by
    have hvalue := (Expr.sameUnless_eval h.agrees value).eq fun _ => id
    rw [renderNode, renderNode, hvalue, outputText_eq_of_rendersAs h]
  | .call tag ⟨name, args, body⟩ => by
    have hvalues := (Argument.sameUnless_evalList h.agrees args).eq fun _ => id
    have hbody : bodyOf t body = bodyOf s body := by
      cases body with
      | none => rfl
      | some nodes =>
        show Body.deferred (fun _ => (renderNodes t nodes).mapError _) = _
        rw [renderNodes_eq_of_rendersAs h nodes]
        rfl
    rw [renderNode_call_invoke, renderNode_call_invoke, hvalues, h.agrees.escaper, h.locals, hbody]

theorem renderNodes_eq_of_rendersAs (h : s.RendersAs t) :
    ∀ (nodes : List Node), renderNodes t nodes = renderNodes s nodes
  | [] => by
    rw [renderNodes, renderNodes]
  | node :: rest => by
    rw [renderNodes, renderNodes, renderNode_eq_of_rendersAs h node,
      renderNodes_eq_of_rendersAs h rest]

end

/-- The tags of an environment have no part in the rendering of nodes. -/
theorem renderNodes_addTag (env : Environment) (tag : Tag) (nodes : List Node) (locals : Value) :
    (env.addTag tag).renderNodes nodes locals = env.renderNodes nodes locals := by
  have hescaper : (env.addTag tag).escaper = env.escaper := rfl
  rw [Environment.renderNodes, Environment.renderNodes, hescaper]
  cases env.escaper with
  | none => rfl
  | some escaper =>
    have hscopes : Scope.RendersAs ⟨env, locals, escaper⟩ ⟨env.addTag tag, locals, escaper⟩ :=
      ⟨⟨rfl, rfl, fun path => .refl _⟩, rfl, rfl⟩
    exact renderNodes_eq_of_rendersAs hscopes nodes

/-- A template that compiles is compiled to the same nodes, and rendered to the same text or error,
when a tag of any new name is added to the environment. -/
theorem render_addTag {env : Environment} {tag : Tag} (hnew : env.tag? tag.name = none)
    {source : String} {nodes : List Node} (hcompile : env.compile source = .ok nodes) :
    (env.addTag tag).compile source = .ok nodes ∧
      ∀ locals, (env.addTag tag).render source locals = env.render source locals := by
  have hsame := compile_addTag hnew hcompile
  refine ⟨hsame, fun locals => ?_⟩
  rw [Environment.render, Environment.render, hsame, hcompile]
  exact renderNodes_addTag env tag nodes locals

/-- A block tag whose name is that of the block which closes a box. -/
def endBoxTag : Tag :=
  Tag.ofDefinition ⟨⟨"endbox", by decide⟩, ⟨"u", by decide⟩, true⟩ none

/-- The box is still closed by its closer, which is not taken for a call of the new tag. -/
theorem render_boxSource_addTag :
    boxEnvironment.tag? endBoxTag.name = none ∧
      (boxEnvironment.addTag endBoxTag).compile boxSource = .ok boxNodes ∧
      (boxEnvironment.addTag endBoxTag).render boxSource (.map [("x", .text "fine")]) =
        .ok "<p>FINE<b t=\"fine\">it's fine</b>" := by
  have hnew : boxEnvironment.tag? endBoxTag.name = none := by decide
  obtain ⟨hcompile, hrender⟩ := render_addTag hnew compile_boxSource
  refine ⟨hnew, hcompile, ?_⟩
  rw [hrender, Environment.render, compile_boxSource]
  rfl

end Template

end TagTemplate
