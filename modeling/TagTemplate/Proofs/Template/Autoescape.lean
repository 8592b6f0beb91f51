import TagTemplate.Proofs.Expression.TwoScopes
import TagTemplate.Proofs.Template.Failure

/-!
# Escaping by the environment and by filters

An environment that escapes outputs does it at one place, when the value of an output has been
evaluated. The built-in filter `escape` does it to any value, and gives safe text, which nothing
escapes again. So a template can say itself what such an environment does for it.

> `renderNodes_autoescape`: nodes are rendered with escaping as the same nodes are without, if every
> output in them, at any depth, is passed through `escape` last.

It holds of the error as well as of the text, and whatever tags are called: a tag is given the same
context, the same values and the same body.
-/

namespace TagTemplate

/-- The environment with outputs escaped, or not escaped. -/
def Environment.withAutoescape (env : Environment) (escapes : Bool) : Environment :=
  { env with config := { env.config with autoescape := escapes } }

/-- Further filters are applied last. -/
theorem Expr.applyAll_append (scope : Scope) (filters added : List (FilterCall Expr)) (v : Value) :
    Expr.applyAll scope v (filters ++ added) =
      Expr.applyAll scope v filters >>= fun w => Expr.applyAll scope w added := by
  induction filters generalizing v with
  | nil =>
    rw [List.nil_append, Expr.applyAll]
    rfl
  | cons f rest ih =>
    obtain ⟨name, args, span⟩ := f
    rw [List.cons_append, Expr.applyAll, Expr.applyAll]
    cases Expr.evalAll scope args with
    | error e => rfl
    | ok vs =>
      show (scope.env.applyFilter name.text v vs scope.escaper >>= _) =
        (scope.env.applyFilter name.text v vs scope.escaper >>= _) >>= _
      cases scope.env.applyFilter name.text v vs scope.escaper with
      | error e => rfl
      | ok w => exact ih w

/-- Filters that are added to an expression are applied to its value. -/
theorem Expr.eval_withFilters (scope : Scope) (added : List (FilterCall Expr)) (e : Expr) :
    (e.withFilters added e.span).eval scope =
      e.eval scope >>= fun v => Expr.applyAll scope v added := by
  obtain ⟨token, children, kind, filters, span⟩ := e
  show (node token children kind (filters ++ added) span).eval scope = _
  rw [Expr.eval_node, Expr.eval_node]
  cases Expr.bareValue scope token children span kind with
  | error e => rfl
  | ok v => exact Expr.applyAll_append scope filters added v

/-- The filter `escape` without arguments. -/
def escapeCall : FilterCall Expr :=
  ⟨⟨"escape", .none⟩, [], .none⟩

namespace Template

mutual

/-- The node with every output in it passed through `escape`. -/
def Node.escaped : Node → Node
  | .text content => .text content
  | .output value => .output (value.withFilters [escapeCall] value.span)
  | .call tag ⟨name, args, body⟩ => .call tag ⟨name, args, Node.escapedInBody body⟩

/-- The body with every output in it passed through `escape`. -/
def Node.escapedInBody : Option (List Node) → Option (List Node)
  | none => none
  | some nodes => some (Node.escapedIn nodes)

/-- The nodes with every output in them passed through `escape`. -/
def Node.escapedIn : List Node → List Node
  | [] => []
  | node :: rest => node.escaped :: Node.escapedIn rest

end

end Template

/-! ## Two scopes -/

/-- One scope escapes outputs, and the other is the same but for that, and has the filter to do
it. -/
structure Scope.EscapesFor (scope plain : Scope) : Prop where
  escapes : scope.env.config.autoescape = true
  agrees : scope.Agrees (fun _ => False) plain
  locals : plain.locals = scope.locals
  filter : Entries.get? "escape" plain.env.filters = some Filter.escape
  vouches : ∀ text, (scope.escaper.markSafe text).text = text

variable {scope plain : Scope}

/-- What the filter makes of a value is written as the value is where outputs are escaped. -/
theorem Scope.EscapesFor.map_outputText (h : scope.EscapesFor plain) (v : Value) :
    (Expr.applyAll plain v [escapeCall]).map (Template.outputText plain) =
      .ok (Template.outputText scope v) := by
  have happly : Expr.applyAll plain v [escapeCall] = Filter.escape v [] scope.escaper := by
    rw [escapeCall, Expr.applyAll, Expr.evalAll]
    show (plain.env.applyFilter "escape" v [] plain.escaper >>= _) = _
    unfold Environment.applyFilter
    rw [h.filter, h.agrees.escaper]
    dsimp only
    cases Filter.escape v [] scope.escaper with
    | error e => rfl
    | ok w =>
      show Expr.applyAll plain w [] = _
      rw [Expr.applyAll]
  rw [happly]
  cases v with
  | safe s => rfl
  | _ =>
    show Except.ok (scope.escaper.markSafe (scope.escaper.escape _)).text = _
    rw [h.vouches]
    exact congrArg Except.ok (if_pos h.escapes).symm

namespace Template

mutual

/-- The node is rendered the same in both scopes, if its outputs go through the filter in the one
that does not escape them. -/
theorem renderNode_escaped (h : scope.EscapesFor plain) :
    ∀ (node : Node), renderNode plain node.escaped = renderNode scope node
  | .text content => by
    rw [Node.escaped, renderNode, renderNode]
  | .output value => by
    have hvalue := (Expr.sameUnless_eval h.agrees value).eq fun _ => id
    rw [Node.escaped, renderNode, renderNode, Expr.eval_withFilters, hvalue]
    cases value.eval scope with
    | error e => rfl
    | ok v => exact h.map_outputText v
  | .call tag ⟨name, args, body⟩ => by
    have hvalues := (Argument.sameUnless_evalList h.agrees args).eq fun _ => id
    have hbody : bodyOf plain (Node.escapedInBody body) = bodyOf scope body := by
      cases body with
      | none => rfl
      | some nodes =>
        show Body.deferred (fun _ => (renderNodes plain (Node.escapedIn nodes)).mapError _) = _
        rw [renderNodes_escapedIn h nodes]
        rfl
    rw [Node.escaped, renderNode_call_invoke, renderNode_call_invoke, hvalues, h.agrees.escaper,
      h.locals, hbody]

theorem renderNodes_escapedIn (h : scope.EscapesFor plain) :
    ∀ (nodes : List Node), renderNodes plain (Node.escapedIn nodes) = renderNodes scope nodes
  | [] => by
    rw [Node.escapedIn, renderNodes, renderNodes]
  | node :: rest => by
    rw [Node.escapedIn, renderNodes, renderNodes, renderNode_escaped h node,
      renderNodes_escapedIn h rest]

end

/-- An environment that escapes outputs renders nodes as it would without escaping, if every output
were passed through the filter `escape`. The escaper has to vouch for markup as it stands. -/
theorem renderNodes_autoescape {env : Environment} (hauto : env.config.autoescape = true)
    (hfilter : Entries.get? "escape" env.filters = some Filter.escape)
    (hsafe : ∀ escaper ∈ env.escaper, ∀ text, (escaper.markSafe text).text = text)
    (nodes : List Node) (locals : Value) :
    env.renderNodes nodes locals =
      (env.withAutoescape false).renderNodes (Node.escapedIn nodes) locals := by
  have hplain : (env.withAutoescape false).escaper = env.escaper := rfl
  rw [Environment.renderNodes, Environment.renderNodes, hplain]
  cases hescaper : env.escaper with
  | none => rfl
  | some escaper =>
    have hescapes : Scope.EscapesFor ⟨env, locals, escaper⟩
        ⟨env.withAutoescape false, locals, escaper⟩ :=
      ⟨hauto, ⟨rfl, rfl, fun path => .refl _⟩, rfl, hfilter, hsafe escaper hescaper⟩
    exact (renderNodes_escapedIn hescapes nodes).symm

/-- A tag that writes its attributes and its body, and no element. -/
def labelTag : Tag where
  definition := ⟨⟨"label", by decide⟩, ⟨"label", by decide⟩, true⟩
  escaper := none
  render ctx items :=
    .ofBody fun body => body.map fun content => Attribute.write ctx.escaper items ++ ": " ++ content

/-- Data behind a filter and without one, around and inside of that tag. -/
def labelNodes : List Node :=
  [.output (.node ⟨"x", .none⟩ [] .path [] .none),
    .call labelTag ⟨"label", [⟨none, .node ⟨"x", .none⟩ [] .path [] .none, .none⟩],
      some [.output (.node ⟨"x", .none⟩ [] .path [⟨⟨"upper", .none⟩, [], .none⟩] .none),
        .output (.node ⟨"x", .none⟩ [] .path [⟨⟨"safe", .none⟩, [], .none⟩] .none)]⟩]

/-- Data is escaped once, and safe text is left alone. -/
theorem renderNodes_labelNodes :
    (Environment.standard.addTag labelTag).renderNodes labelNodes (.map [("x", .text "<p")]) =
        .ok "&lt;p&lt;p: &lt;P<p" ∧
      ((Environment.standard.addTag labelTag).withAutoescape false).renderNodes
          (Node.escapedIn labelNodes) (.map [("x", .text "<p")]) =
        .ok "&lt;p&lt;p: &lt;P<p" := by
  have hrender : (Environment.standard.addTag labelTag).renderNodes labelNodes
      (.map [("x", .text "<p")]) = .ok "&lt;p&lt;p: &lt;P<p" := rfl
  refine ⟨hrender, ?_⟩
  rw [← renderNodes_autoescape rfl rfl (fun escaper hescaper text => ?_), hrender]
  cases hescaper
  rfl

end Template

end TagTemplate
