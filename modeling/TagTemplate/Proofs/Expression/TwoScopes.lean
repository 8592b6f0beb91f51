import TagTemplate.Proofs.Expression.SafeText

/-!
# Evaluation in two scopes

An expression sees three things of its scope: the filters, the escaper, and the values of its
variables. If two scopes have the same filters and the same escaper, and a variable has the same
value in both unless looking it up in the first is an error of a certain sort, then the same holds of
every expression, because the first error ends an evaluation and nothing is evaluated out of order.

> `Expr.sameUnless_eval`, `Argument.sameUnless_evalList`: the value of an expression, and those of an
> argument list, are the same in the second scope unless the first fails with such an error.

With no errors of that sort at all this says that the two values are equal (`SameUnless.eq`).
-/

namespace TagTemplate

/-- The second result is the same as the first, unless that is an error that satisfies `stops`. -/
def SameUnless {α : Type} (stops : TemplateError → Prop) (x y : Except TemplateError α) : Prop :=
  (∃ e, stops e ∧ x = .error e) ∨ y = x

namespace SameUnless

variable {α β : Type} {stops : TemplateError → Prop} {x y : Except TemplateError α}

theorem refl (x : Except TemplateError α) : SameUnless stops x x :=
  Or.inr rfl

theorem bind {f g : α → Except TemplateError β} (h : SameUnless stops x y)
    (hfg : ∀ a, SameUnless stops (f a) (g a)) : SameUnless stops (x >>= f) (y >>= g) := by
  rcases h with ⟨e, he, hx⟩ | hxy
  · subst hx
    exact Or.inl ⟨e, he, rfl⟩
  · subst hxy
    cases y with
    | error e => exact refl _
    | ok a => exact hfg a

theorem map {f : α → β} (h : SameUnless stops x y) : SameUnless stops (x.map f) (y.map f) := by
  rcases h with ⟨e, he, hx⟩ | hxy
  · subst hx
    exact Or.inl ⟨e, he, rfl⟩
  · subst hxy
    exact refl _

/-- If no error stops the first, both are the same. -/
theorem eq (h : SameUnless stops x y) (hnone : ∀ e, ¬ stops e) : y = x := by
  rcases h with ⟨e, he, -⟩ | hxy
  · exact absurd he (hnone e)
  · exact hxy

end SameUnless

/-- What an expression sees of the two scopes is the same, unless a variable of the first cannot be
looked up. -/
structure Scope.Agrees (stops : TemplateError → Prop) (s t : Scope) : Prop where
  filters : t.env.filters = s.env.filters
  escaper : t.escaper = s.escaper
  lookup : ∀ path, SameUnless stops (s.lookup path) (t.lookup path)

variable {stops : TemplateError → Prop} {s t : Scope}

theorem Scope.Agrees.applyFilter (h : s.Agrees stops t) (name : String) (v : Value)
    (args : List Value) :
    t.env.applyFilter name v args t.escaper = s.env.applyFilter name v args s.escaper := by
  unfold Environment.applyFilter
  rw [h.filters, h.escaper]

mutual

/-- The value of an expression is the same in both scopes, unless a variable stops the first. -/
theorem Expr.sameUnless_eval (h : s.Agrees stops t) :
    ∀ (e : Expr), SameUnless stops (e.eval s) (e.eval t)
  | .node token children kind filters span => by
    rw [Expr.eval_node, Expr.eval_node]
    have hbare : SameUnless stops (Expr.bareValue s token children span kind)
        (Expr.bareValue t token children span kind) := by
      cases kind with
      | path => exact h.lookup token.text
      | list => exact (Expr.sameUnless_evalAll h children).bind fun _ => .refl _
      | dict => exact (Expr.sameUnless_evalEntries h span children).bind fun _ => .refl _
      | sum => exact Expr.sameUnless_evalSum h children
      | _ => exact .refl _
    exact hbare.bind fun v => Expr.sameUnless_applyAll h filters v

theorem Expr.sameUnless_evalAll (h : s.Agrees stops t) :
    ∀ (es : List Expr), SameUnless stops (Expr.evalAll s es) (Expr.evalAll t es)
  | [] => by
    rw [Expr.evalAll, Expr.evalAll]
    exact .refl _
  | e :: rest => by
    rw [Expr.evalAll, Expr.evalAll]
    refine (Expr.sameUnless_eval h e).bind fun v => ?_
    exact (Expr.sameUnless_evalAll h rest).bind fun _ => .refl _

theorem Expr.sameUnless_evalEntries (h : s.Agrees stops t) (span : Span) :
    ∀ (es : List Expr),
      SameUnless stops (Expr.evalEntries s span es) (Expr.evalEntries t span es)
  | [] => by
    rw [Expr.evalEntries, Expr.evalEntries]
    exact .refl _
  | [_] => by
    rw [Expr.evalEntries, Expr.evalEntries]
    exact .refl _
  | key :: e :: rest => by
    rw [Expr.evalEntries, Expr.evalEntries]
    refine (Expr.sameUnless_eval h e).bind fun v => ?_
    exact (Expr.sameUnless_evalEntries h span rest).bind fun _ => .refl _

theorem Expr.sameUnless_evalSum (h : s.Agrees stops t) :
    ∀ (es : List Expr), SameUnless stops (Expr.evalSum s es) (Expr.evalSum t es)
  | [] => by
    rw [Expr.evalSum, Expr.evalSum]
    exact .refl _
  | e :: rest => by
    rw [Expr.evalSum, Expr.evalSum]
    exact (Expr.sameUnless_eval h e).bind fun v => Expr.sameUnless_evalSumFrom h rest v

theorem Expr.sameUnless_evalSumFrom (h : s.Agrees stops t) :
    ∀ (es : List Expr) (v : Value),
      SameUnless stops (Expr.evalSumFrom s v es) (Expr.evalSumFrom t v es)
  | [], v => by
    rw [Expr.evalSumFrom, Expr.evalSumFrom]
    exact .refl _
  | e :: rest, v => by
    rw [Expr.evalSumFrom, Expr.evalSumFrom]
    exact (Expr.sameUnless_eval h e).bind fun w => Expr.sameUnless_evalSumFrom h rest (v.add w)

theorem Expr.sameUnless_applyAll (h : s.Agrees stops t) :
    ∀ (filters : List (FilterCall Expr)) (v : Value),
      SameUnless stops (Expr.applyAll s v filters) (Expr.applyAll t v filters)
  | [], v => by
    rw [Expr.applyAll, Expr.applyAll]
    exact .refl _
  | ⟨name, args, _⟩ :: rest, v => by
    rw [Expr.applyAll, Expr.applyAll]
    refine (Expr.sameUnless_evalAll h args).bind fun vs => ?_
    rw [h.applyFilter]
    exact SameUnless.bind (.refl _) fun w => Expr.sameUnless_applyAll h rest w

end

theorem Argument.sameUnless_evalKeyed (h : s.Agrees stops t) (args : List Argument) :
    SameUnless stops (Argument.evalKeyed s args) (Argument.evalKeyed t args) := by
  induction args with
  | nil => exact .refl _
  | cons a rest ih =>
    rw [Argument.evalKeyed, Argument.evalKeyed]
    exact (Expr.sameUnless_eval h a.value).bind fun v => ih.bind fun _ => .refl _

/-- The values of an argument list are the same in both scopes, unless a variable stops the first. -/
theorem Argument.sameUnless_evalList (h : s.Agrees stops t) (args : List Argument) :
    SameUnless stops (Argument.evalList s args) (Argument.evalList t args) :=
  (Argument.sameUnless_evalKeyed h args).map

end TagTemplate
