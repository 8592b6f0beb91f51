import TagTemplate.Proofs.Expression.TwoScopes
import TagTemplate.Proofs.Template.Failure

/-!
# Undefined variables as errors

An environment can fail on undefined variables, which are null otherwise. A variable that is defined
has the same value in both cases, so the two renderings of a template are the same up to the first
undefined variable, and there the one that is strict about them ends.

> `render_withThrowOnUndefined`: if the strict rendering of a template does not fail with an undefined
> variable, the other rendering gives the same, text or error.
-/

namespace TagTemplate

/-- The environment with undefined variables as errors, or as nulls. -/
def Environment.withThrowOnUndefined (env : Environment) (throws : Bool) : Environment :=
  { env with config := { env.config with throwOnUndefined := throws } }

theorem Environment.compile_withThrowOnUndefined (env : Environment) (throws : Bool)
    (source : String) : (env.withThrowOnUndefined throws).compile source = env.compile source := by
  have htags : (env.withThrowOnUndefined throws).tags = env.tags := rfl
  exact Template.Parser.compile_eq_of_tags htags source

/-- The error is that a variable is undefined. -/
def TemplateError.IsUndefined (e : TemplateError) : Prop :=
  ∃ path, e = .undefinedVariable path

/-- A variable that is found is found in both scopes. -/
theorem Scope.agrees_withThrowOnUndefined (env : Environment) (locals : Value)
    (escaper : Escaper) :
    Scope.Agrees TemplateError.IsUndefined ⟨env.withThrowOnUndefined true, locals, escaper⟩
      ⟨env.withThrowOnUndefined false, locals, escaper⟩ where
  filters := rfl
  escaper := rfl
  lookup := by
    intro path
    unfold Scope.lookup
    dsimp only
    cases Scope.follow locals ((pathSegments path.toList).map String.ofList) with
    | some v => exact .refl _
    | none => exact Or.inl ⟨_, ⟨path, rfl⟩, rfl⟩

namespace Template

mutual

/-- A node is rendered the same in both scopes, unless a variable stops the first. What stops it in
a body stops it with the same error. -/
theorem sameUnless_renderNode {stops : TemplateError → Prop} {s t : Scope}
    (h : s.Agrees stops t) (hauto : t.env.config.autoescape = s.env.config.autoescape) :
    ∀ (node : Node), node.EveryTag Tag.IsUsual →
      SameUnless stops (renderNode s node) (renderNode t node)
  | .text content, _ => by
    rw [renderNode, renderNode]
    exact .refl _
  | .output value, _ => by
    have htext : outputText t = outputText s := by
      funext v
      unfold outputText
      rw [hauto, h.escaper]
    rw [renderNode, renderNode, htext]
    exact (Expr.sameUnless_eval h value).map
  | .call tag ⟨name, args, body⟩, hnode => by
    rw [Node.EveryTag] at hnode
    obtain ⟨htag, hbody⟩ := hnode
    have hcontent : SameUnless stops (renderBody s body) (renderBody t body) := by
      cases body with
      | none => exact .refl _
      | some nodes => exact sameUnless_renderNodes h hauto nodes hbody
    rw [renderNode_call htag, renderNode_call htag, h.escaper]
    refine (Argument.sameUnless_evalList h args).bind fun values => ?_
    exact SameUnless.bind (.refl _) fun items => hcontent.bind fun content => .refl _

theorem sameUnless_renderNodes {stops : TemplateError → Prop} {s t : Scope}
    (h : s.Agrees stops t) (hauto : t.env.config.autoescape = s.env.config.autoescape) :
    ∀ (nodes : List Node), Node.EveryTagIn Tag.IsUsual nodes →
      SameUnless stops (renderNodes s nodes) (renderNodes t nodes)
  | [], _ => by
    rw [renderNodes, renderNodes]
    exact .refl _
  | node :: rest, ⟨hnode, hrest⟩ => by
    rw [renderNodes, renderNodes]
    refine (sameUnless_renderNode h hauto node hnode).bind fun text => ?_
    exact (sameUnless_renderNodes h hauto rest hrest).bind fun more => .refl _

end

/-- The tags that are called in a compiled template are those of the environment. -/
theorem Linear.everyTagIn {env : Environment} {q : Tag → Prop}
    (htags : ∀ {name : String} {tag : Tag}, env.tag? name = some tag → q tag) {nodes : List Node}
    {parts : List Part} (h : Linear env nodes parts) : Node.EveryTagIn q nodes := by
  induction h with
  | nil => trivial
  | text hrest ih => exact ⟨trivial, ih⟩
  | output hread hrest ih => exact ⟨trivial, ih⟩
  | inline hhead htag hinline hargs hrest ih => exact ⟨⟨htags htag, trivial⟩, ih⟩
  | block hhead htag hblock hargs hbody hdirect hcloser hclosing hrest ihbody ih =>
    exact ⟨⟨htags htag, ihbody⟩, ih⟩

theorem sameUnless_renderNodes_withThrowOnUndefined (env : Environment) {nodes : List Node}
    (htags : Node.EveryTagIn Tag.IsUsual nodes) (locals : Value) :
    SameUnless TemplateError.IsUndefined
      ((env.withThrowOnUndefined true).renderNodes nodes locals)
      ((env.withThrowOnUndefined false).renderNodes nodes locals) := by
  have hescaper : ∀ throws, (env.withThrowOnUndefined throws).escaper = env.escaper :=
    fun _ => rfl
  rw [Environment.renderNodes, Environment.renderNodes, hescaper, hescaper]
  cases env.escaper with
  | none => exact .refl _
  | some escaper =>
    exact sameUnless_renderNodes (Scope.agrees_withThrowOnUndefined env locals escaper) rfl nodes
      htags

/-- Rendering that is strict about undefined variables, and does not fail with one, gives what
rendering gives that is not, text or error. -/
theorem render_withThrowOnUndefined {env : Environment}
    (htags : ∀ {name : String} {tag : Tag}, env.tag? name = some tag → tag.IsUsual)
    {source : String} {locals : Value}
    (hdefined : ∀ path, (env.withThrowOnUndefined true).render source locals ≠
      .error (.undefinedVariable path)) :
    (env.withThrowOnUndefined false).render source locals =
      (env.withThrowOnUndefined true).render source locals := by
  have hsame : SameUnless TemplateError.IsUndefined
      ((env.withThrowOnUndefined true).render source locals)
      ((env.withThrowOnUndefined false).render source locals) := by
    rw [Environment.render, Environment.render, env.compile_withThrowOnUndefined,
      env.compile_withThrowOnUndefined]
    cases hnodes : env.compile source with
    | error e => exact .refl _
    | ok nodes =>
      exact sameUnless_renderNodes_withThrowOnUndefined env
        ((linear_of_compile hnodes).everyTagIn htags) locals
  rcases hsame with ⟨e, ⟨path, hpath⟩, herror⟩ | hsame
  · subst hpath
    exact absurd herror (hdefined path)
  · exact hsame

/-- Data in a box, all of which is defined: no rendering of it fails. -/
theorem render_boxSource_defined :
    (boxEnvironment.withThrowOnUndefined true).render boxSource (.map [("x", .text "fine")]) =
        .ok "<p>FINE<b t=\"fine\">it's fine</b>" ∧
      (boxEnvironment.withThrowOnUndefined false).render boxSource (.map [("x", .text "fine")]) =
        .ok "<p>FINE<b t=\"fine\">it's fine</b>" := by
  have htags : ∀ {name : String} {tag : Tag}, boxEnvironment.tag? name = some tag →
      tag.IsUsual := by
    intro name tag h
    have hmem := Entries.mem_of_get? h
    cases List.mem_singleton.mp hmem
    rfl
  have hstrict : (boxEnvironment.withThrowOnUndefined true).render boxSource
      (.map [("x", .text "fine")]) = .ok "<p>FINE<b t=\"fine\">it's fine</b>" := by
    rw [Environment.render, boxEnvironment.compile_withThrowOnUndefined, compile_boxSource]
    rfl
  refine ⟨hstrict, ?_⟩
  rw [render_withThrowOnUndefined htags (fun path h => ?_), hstrict]
  rw [hstrict] at h
  cases h

end Template

end TagTemplate
