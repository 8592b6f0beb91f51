import TagTemplate.Proofs.Expression.Evaluation
import TagTemplate.Proofs.Tag.Usual
import TagTemplate.Proofs.Template.Markup

/-!
# What rendering fails with

Rendering goes down into the bodies of tags and comes back, and an error that comes out of a body is
packed up as an error of the tag and unpacked again, at every level. Nothing of this can be seen.
`Node.evaluationsOf` lists, in the order of the source, all that is evaluated for some nodes: the
values of outputs and, for a call, its arguments, their meaning as attributes, and then what its body
evaluates. Each of them fails or not on its own (`Evaluation.run`).

> `renderNodes_iff_evaluations`: if the tags write their elements, rendering succeeds exactly if all
> evaluations do, and fails exactly with the error of the first that fails.

What is evaluated was read, and what was read can be evaluated. So the errors that are left do not
blame the source:

> `faultless_of_read`: neither the value of what was read nor the rendering of what was compiled
> fails with a fault in the source, if no filter reports one, as no built-in filter does.
-/

namespace TagTemplate

namespace Template

mutual

/-- All tags that a node calls satisfy `q`. -/
def Node.EveryTag (q : Tag → Prop) : Node → Prop
  | .text _ => True
  | .output _ => True
  | .call tag ⟨_, _, body⟩ => q tag ∧ Node.EveryTagInBody q body

/-- All tags that a body calls satisfy `q`. -/
def Node.EveryTagInBody (q : Tag → Prop) : Option (List Node) → Prop
  | none => True
  | some nodes => Node.EveryTagIn q nodes

/-- All tags that several nodes call satisfy `q`. -/
def Node.EveryTagIn (q : Tag → Prop) : List Node → Prop
  | [] => True
  | node :: rest => node.EveryTag q ∧ Node.EveryTagIn q rest

end

/-! ## Evaluations -/

/-- What is evaluated for a node, apart from the nodes in it. -/
inductive Evaluation where
  /-- The value of an output. -/
  | output (value : Expr)
  /-- The values of the arguments of a call. -/
  | arguments (args : List Argument)
  /-- What the values of the arguments of a call mean as attributes. -/
  | attributes (args : List Argument)

/-- What a refused argument is for the template. -/
def refused {α : Type} (x : Except ArgumentError α) : Except TemplateError α :=
  x.mapError fun e => .tag (.invalidArgument e)

namespace Evaluation

/-- Does one evaluation on its own, to see whether it fails. -/
def run (scope : Scope) : Evaluation → Except TemplateError Unit
  | output value => (value.eval scope).map fun _ => ()
  | arguments args => (Argument.evalList scope args).map fun _ => ()
  | attributes args => do
    let values ← Argument.evalList scope args
    (refused (Attribute.Item.ofValues values)).map fun _ => ()

/-- Does evaluations one after another, up to the first that fails. -/
def runAll (scope : Scope) : List Evaluation → Except TemplateError Unit
  | [] => .ok ()
  | e :: rest => do
    e.run scope
    runAll scope rest

variable {scope : Scope}

theorem runAll_append (first second : List Evaluation) :
    runAll scope (first ++ second) = (do runAll scope first; runAll scope second) := by
  induction first with
  | nil => rfl
  | cons e first ih =>
    rw [List.cons_append, runAll, runAll, ih]
    cases e.run scope <;> rfl

theorem runAll_eq_ok_iff {evaluations : List Evaluation} :
    runAll scope evaluations = .ok () ↔ ∀ e ∈ evaluations, e.run scope = .ok () := by
  induction evaluations with
  | nil => simp [runAll]
  | cons e rest ih =>
    rw [List.forall_mem_cons, ← ih, runAll]
    cases he : e.run scope with
    | error err => exact ⟨fun h => (by cases h), fun h => (by cases h.1)⟩
    | ok _ => exact ⟨fun h => ⟨rfl, h⟩, fun h => h.2⟩

/-- The error is that of the first evaluation that fails. -/
theorem runAll_eq_error_iff {evaluations : List Evaluation} {error : TemplateError} :
    runAll scope evaluations = .error error ↔
      ∃ before e after, evaluations = before ++ e :: after ∧
        (∀ earlier ∈ before, earlier.run scope = .ok ()) ∧ e.run scope = .error error := by
  constructor
  · intro h
    induction evaluations with
    | nil => cases h
    | cons e rest ih =>
      rw [runAll] at h
      cases he : e.run scope with
      | error err =>
        rw [he] at h
        cases h
        exact ⟨[], e, rest, rfl, fun _ hmem => absurd hmem List.not_mem_nil, he⟩
      | ok _ =>
        rw [he] at h
        obtain ⟨before, first, after, rfl, hbefore, hfirst⟩ := ih h
        exact ⟨e :: before, first, after, rfl, List.forall_mem_cons.mpr ⟨he, hbefore⟩, hfirst⟩
  · rintro ⟨before, e, after, rfl, hbefore, he⟩
    rw [runAll_append, runAll_eq_ok_iff.mpr hbefore, runAll, he]
    rfl

end Evaluation

mutual

/-- All that is evaluated for a node, in the order of the source. -/
def Node.evaluations : Node → List Evaluation
  | .text _ => []
  | .output value => [.output value]
  | .call _ ⟨_, args, body⟩ =>
    .arguments args :: .attributes args :: Node.evaluationsOfBody body

/-- All that is evaluated for the body of a call. -/
def Node.evaluationsOfBody : Option (List Node) → List Evaluation
  | none => []
  | some nodes => Node.evaluationsOf nodes

/-- All that is evaluated for several nodes, in the order of the source. -/
def Node.evaluationsOf : List Node → List Evaluation
  | [] => []
  | node :: rest => node.evaluations ++ Node.evaluationsOf rest

end

/-! ## Rendering -/

variable {scope : Scope}

/-- The body that a tag is given. -/
def bodyOf (scope : Scope) : Option (List Node) → Body
  | some nodes => .deferred fun _ => (renderNodes scope nodes).mapError TagError.body
  | none => .empty

/-- A call sees of its scope the values of its arguments, the escaper, the variables, and its
body. -/
theorem renderNode_call_invoke (tag : Tag) (name : String) (args : List Argument)
    (body : Option (List Node)) :
    renderNode scope (.call tag ⟨name, args, body⟩) = (do
      let values ← Argument.evalList scope args
      let markup ← (tag.invoke ⟨scope.escaper, scope.locals⟩ values
        (bodyOf scope body)).mapError TemplateError.ofTag
      .ok markup.text) := by
  rw [renderNode.eq_def]
  cases body <;> rfl

/-- The content of a call. -/
def renderBody (scope : Scope) : Option (List Node) → Except TemplateError String
  | some nodes => renderNodes scope nodes
  | none => .ok ""

/-- A call of a tag that writes its element, as one sequence. The error of the body is the error of
the call, and only the attributes and the mark are made with the tag's own escaper. -/
theorem renderNode_call {tag : Tag} (htag : tag.IsUsual) (name : String) (args : List Argument)
    (body : Option (List Node)) :
    renderNode scope (.call tag ⟨name, args, body⟩) = (do
      let values ← Argument.evalList scope args
      let items ← refused (Attribute.Item.ofValues values)
      let content ← renderBody scope body
      let escaper := tag.escaper.getD scope.escaper
      pure (escaper.markSafe
        (elementText tag.definition.element.text (Attribute.write escaper items) content)).text) := by
  rw [renderNode_call_invoke]
  cases Argument.evalList scope args with
  | error e => rfl
  | ok values =>
    show (do
      let markup ← (tag.invoke ⟨scope.escaper, scope.locals⟩ values _).mapError TemplateError.ofTag
      Except.ok markup.text) = (do let items ← refused (Attribute.Item.ofValues values); _)
    rw [Tag.invoke_of_isUsual htag]
    cases Attribute.Item.ofValues values with
    | error e => rfl
    | ok items =>
      cases body with
      | none => rfl
      | some nodes =>
        -- an error is packed up for the tag and unpacked again
        show _ = (do let content ← renderNodes scope nodes; _)
        rw [bodyOf, Body.resolve]
        cases renderNodes scope nodes <;> rfl

mutual

/-- Rendering a node fails or not as its evaluations do. -/
theorem map_renderNode : ∀ (node : Node), node.EveryTag Tag.IsUsual →
    (renderNode scope node).map (fun _ => ()) = Evaluation.runAll scope node.evaluations
  | .text content, _ => by
    rw [renderNode]
    rfl
  | .output value, _ => by
    rw [renderNode]
    show _ = (do (value.eval scope).map fun _ => (); Except.ok ())
    cases value.eval scope <;> rfl
  | .call tag ⟨name, args, body⟩, h => by
    rw [Node.EveryTag] at h
    obtain ⟨htag, hbody⟩ := h
    have hcontent : (renderBody scope body).map (fun _ => ()) =
        Evaluation.runAll scope (Node.evaluationsOfBody body) := by
      cases body with
      | none => rfl
      | some nodes => exact map_renderNodes nodes hbody
    rw [renderNode_call htag, Node.evaluations, Evaluation.runAll, Evaluation.runAll, ← hcontent]
    dsimp only [Evaluation.run]
    cases Argument.evalList scope args with
    | error e => rfl
    | ok values =>
      show (do let items ← refused (Attribute.Item.ofValues values); _).map _ =
        (do (refused (Attribute.Item.ofValues values)).map fun _ => (); _)
      cases refused (Attribute.Item.ofValues values) with
      | error e => rfl
      | ok items => cases renderBody scope body <;> rfl

/-- Rendering nodes fails or not as their evaluations do, one after another. -/
theorem map_renderNodes : ∀ (nodes : List Node), Node.EveryTagIn Tag.IsUsual nodes →
    (renderNodes scope nodes).map (fun _ => ()) =
      Evaluation.runAll scope (Node.evaluationsOf nodes)
  | [], _ => by
    rw [renderNodes]
    rfl
  | node :: rest, ⟨hnode, hrest⟩ => by
    rw [renderNodes, Node.evaluationsOf, Evaluation.runAll_append, ← map_renderNode node hnode,
      ← map_renderNodes rest hrest]
    cases renderNode scope node with
    | error e => rfl
    | ok text => cases renderNodes scope rest <;> rfl

end

/-! ## The first failure -/

/-- Rendering succeeds exactly if all evaluations do, and its error is the error of the first that
fails, however deep in the nodes that is. -/
theorem renderNodes_iff_evaluations {env : Environment} {escaper : Escaper}
    (hescaper : env.escaper = some escaper) {nodes : List Node}
    (htags : Node.EveryTagIn Tag.IsUsual nodes) (locals : Value) :
    ((∃ text, env.renderNodes nodes locals = .ok text) ↔
      ∀ e ∈ Node.evaluationsOf nodes, e.run ⟨env, locals, escaper⟩ = .ok ()) ∧
    ∀ error, env.renderNodes nodes locals = .error error ↔
      ∃ before e after, Node.evaluationsOf nodes = before ++ e :: after ∧
        (∀ earlier ∈ before, earlier.run ⟨env, locals, escaper⟩ = .ok ()) ∧
        e.run ⟨env, locals, escaper⟩ = .error error := by
  have hrender : env.renderNodes nodes locals = renderNodes ⟨env, locals, escaper⟩ nodes := by
    rw [Environment.renderNodes, hescaper]
  have hruns : Evaluation.runAll ⟨env, locals, escaper⟩ (Node.evaluationsOf nodes) =
      (env.renderNodes nodes locals).map fun _ => () := by
    rw [hrender, map_renderNodes nodes htags]
  refine ⟨?_, fun error => ?_⟩
  · rw [← Evaluation.runAll_eq_ok_iff, hruns]
    cases env.renderNodes nodes locals with
    | error e => exact ⟨fun h => (by obtain ⟨_, h⟩ := h; cases h), fun h => (by cases h)⟩
    | ok text => exact ⟨fun _ => rfl, fun _ => ⟨text, rfl⟩⟩
  · rw [← Evaluation.runAll_eq_error_iff, hruns]
    cases env.renderNodes nodes locals with
    | error e => exact ⟨fun h => (by cases h; rfl), fun h => (by cases h; rfl)⟩
    | ok text => exact ⟨fun h => (by cases h), fun h => (by cases h)⟩

/-- An output of a variable through a filter. -/
def filteredOutput (filter : String) : Node :=
  .output (.node ⟨"x", .none⟩ [] .path [⟨⟨filter, .none⟩, [], .none⟩] .none)

/-- A box in a box, with an unknown filter in the inner one and another behind it. -/
def failingBoxes : List Node :=
  [.call boxTag ⟨"box", [],
    some [.call boxTag ⟨"box", [], some [filteredOutput "nope"]⟩, filteredOutput "never"]⟩]

/-- The error of the inner box is the error of the rendering. -/
theorem renderNodes_failingBoxes :
    boxEnvironment.renderNodes failingBoxes .null = .error (.unknownFilter "nope") := by
  have htags : Node.EveryTagIn Tag.IsUsual failingBoxes :=
    ⟨⟨rfl, ⟨rfl, trivial, trivial⟩, trivial, trivial⟩, trivial⟩
  refine ((renderNodes_iff_evaluations rfl htags .null).2 _).mpr
    ⟨[.arguments [], .attributes [], .arguments [], .attributes []], _, _, rfl, ?_, rfl⟩
  intro e he
  simp only [List.mem_cons, List.not_mem_nil, or_false] at he
  rcases he with rfl | rfl | rfl | rfl <;> rfl

/-! ## No faults in what was read -/

/-- What is evaluated was read. -/
def Evaluation.IsEvaluable : Evaluation → Prop
  | output value => value.Evaluable
  | arguments args => ∀ a ∈ args, a.value.Evaluable
  | attributes args => ∀ a ∈ args, a.value.Evaluable

/-- Refusing an argument does not blame the source. -/
theorem faultless_refused {α : Type} (x : Except ArgumentError α) : Faultless (refused x) := by
  cases x with
  | error e => exact .error id
  | ok a => exact .ok a

theorem Evaluation.faultless_run (hfilters : scope.env.FiltersFaultless) {e : Evaluation}
    (h : e.IsEvaluable) : Faultless (e.run scope) := by
  cases e with
  | output value => exact (Expr.faultless_eval hfilters value h).map
  | arguments args => exact (Argument.faultless_evalList hfilters h).map
  | attributes args =>
    exact (Argument.faultless_evalList hfilters h).bind fun values => (faultless_refused _).map

/-- The induction is on how the nodes are written out in the source. -/
theorem Linear.isEvaluable {env : Environment} {nodes : List Node} {parts : List Part}
    (h : Linear env nodes parts) : ∀ e ∈ Node.evaluationsOf nodes, e.IsEvaluable := by
  induction h with
  | nil => exact fun e he => absurd he List.not_mem_nil
  | text hrest ih => exact ih
  | output hread hrest ih => exact List.forall_mem_cons.mpr ⟨Expr.evaluable_of_read hread, ih⟩
  | inline hhead htag hinline hargs hrest ih =>
    have hevaluable := Argument.evaluable_of_readList hargs
    exact List.forall_mem_cons.mpr ⟨hevaluable, List.forall_mem_cons.mpr ⟨hevaluable, ih⟩⟩
  | block hhead htag hblock hargs hbody hcalls hcloser hclosing hrest ihbody ih =>
    have hevaluable := Argument.evaluable_of_readList hargs
    refine List.forall_mem_cons.mpr ⟨hevaluable, List.forall_mem_cons.mpr ⟨hevaluable, ?_⟩⟩
    exact List.forall_mem_append.mpr ⟨ihbody, ih⟩

/-- The rendering of a compiled template does not blame the source. -/
theorem faultless_renderNodes {env : Environment} (hfilters : env.FiltersFaultless)
    {source : String} {nodes : List Node} (hcompile : env.compile source = .ok nodes)
    (htags : Node.EveryTagIn Tag.IsUsual nodes) (locals : Value) :
    Faultless (env.renderNodes nodes locals) := by
  unfold Environment.renderNodes
  split
  next escaper hescaper =>
    intro error herror
    have hruns : (renderNodes ⟨env, locals, escaper⟩ nodes).map (fun _ => ()) =
        Evaluation.runAll ⟨env, locals, escaper⟩ (Node.evaluationsOf nodes) :=
      map_renderNodes nodes htags
    rw [herror] at hruns
    obtain ⟨before, e, after, hsplit, _, he⟩ := Evaluation.runAll_eq_error_iff.mp hruns.symm
    have hevaluable : e.IsEvaluable := by
      refine (linear_of_compile hcompile).isEvaluable e ?_
      rw [hsplit]
      exact List.mem_append_right _ (List.mem_cons_self ..)
    exact Evaluation.faultless_run hfilters hevaluable error he
  next => exact .error id

/-- What is read has numbers that are numbers and dicts of keys and values at every depth, and its
value does not fail with a fault in the source if no filter does. Nor does the rendering of a
compiled template whose filters are built in and whose tags write their elements. -/
theorem faultless_of_read :
    (∀ {text : String} {e : Expr}, Expr.read text = .ok e →
      e.EveryNode Expr.IsSound ∧
        ∀ scope : Scope, scope.env.FiltersFaultless → Faultless (e.eval scope)) ∧
    (∀ {text : String} {args : List Argument}, Argument.readList text = .ok args →
      (∀ a ∈ args, a.value.EveryNode Expr.IsSound) ∧
        ∀ scope : Scope, scope.env.FiltersFaultless → Faultless (Argument.evalList scope args)) ∧
    ∀ {env : Environment} {source : String} {nodes : List Node}, env.FiltersBuiltin →
      env.compile source = .ok nodes → Node.EveryTagIn Tag.IsUsual nodes →
        ∀ locals, Faultless (env.renderNodes nodes locals) := by
  refine ⟨fun hread => ?_, fun hread => ?_, fun hfilters hcompile htags locals => ?_⟩
  · have hevaluable := Expr.evaluable_of_read hread
    exact ⟨hevaluable, fun scope hfilters => Expr.faultless_eval hfilters _ hevaluable⟩
  · have hevaluable := Argument.evaluable_of_readList hread
    exact ⟨hevaluable, fun scope hfilters => Argument.faultless_evalList hfilters hevaluable⟩
  · exact faultless_renderNodes hfilters.faultless hcompile htags locals

/-- A dict with a number in the argument of a filter, arguments with a sum, and a box around data. -/
theorem faultless_boxNodes :
    (∃ e, Expr.read "\x7b'a': x|default(2.5)\x7d" = .ok e ∧ e.EveryNode Expr.IsSound ∧
      ∀ locals, Faultless (e.eval ⟨boxEnvironment, locals, .html⟩)) ∧
    (∃ args, Argument.readList "t=x + 1" = .ok args ∧
      (∀ a ∈ args, a.value.EveryNode Expr.IsSound) ∧
      ∀ locals, Faultless (Argument.evalList ⟨boxEnvironment, locals, .html⟩ args)) ∧
    ∀ locals, Faultless (boxEnvironment.renderNodes boxNodes locals) := by
  have hbuiltin : boxEnvironment.FiltersBuiltin := fun h => ⟨_, Entries.mem_of_get? h⟩
  obtain ⟨e, he⟩ : ∃ e, Expr.read "\x7b'a': x|default(2.5)\x7d" = .ok e := ⟨_, rfl⟩
  obtain ⟨args, hargs⟩ : ∃ args, Argument.readList "t=x + 1" = .ok args := ⟨_, rfl⟩
  obtain ⟨hexpr, hlist, hnodes⟩ := faultless_of_read
  obtain ⟨hsound, heval⟩ := hexpr he
  obtain ⟨hsounds, hevals⟩ := hlist hargs
  refine ⟨⟨e, he, hsound, fun locals => heval _ hbuiltin.faultless⟩,
    ⟨args, hargs, hsounds, fun locals => hevals _ hbuiltin.faultless⟩,
    hnodes hbuiltin compile_boxSource ?_⟩
  exact ⟨trivial, trivial, ⟨rfl, trivial, trivial, trivial⟩, trivial⟩

end Template
end TagTemplate
