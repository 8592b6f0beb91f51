import TagTemplate.Proofs.Expression.Alike
import TagTemplate.Proofs.Expression.Evaluable
import TagTemplate.Proofs.Expression.SafeText

/-!
# Evaluating what was read

Faults in the source are found when a template is compiled. Evaluation could still report two of
them, and does not for an expression that is `Evaluable`:

* `Expr.faultless_eval`, `Argument.faultless_evalList`: its value is no fault, whatever the variables
  are, if the filters of the environment report none;
* `Expr.eval_placeless`, `Argument.evalList_eq_of_placeless`: its value does not depend on places,
  which such a fault is the only thing to show.
-/

namespace TagTemplate

/-- The error is a fault in the source of a template. -/
def TemplateError.IsMalformed : TemplateError → Prop
  | .malformed _ _ _ => True
  | _ => False

/-- The step does not fail with a fault in the source. -/
def Faultless {α : Type} (x : Except TemplateError α) : Prop :=
  ∀ e, x = .error e → ¬ e.IsMalformed

namespace Faultless

variable {α β : Type} {x : Except TemplateError α}

theorem ok (a : α) : Faultless (.ok a) := by
  intro e h
  cases h

theorem error {e : TemplateError} (h : ¬ e.IsMalformed) :
    Faultless (.error e : Except TemplateError α) := by
  intro e' heq
  cases heq
  exact h

theorem bind {f : α → Except TemplateError β} (hx : Faultless x) (hf : ∀ a, Faultless (f a)) :
    Faultless (x >>= f) := by
  cases x with
  | error e => exact error (hx e rfl)
  | ok a => exact hf a

theorem map {f : α → β} (hx : Faultless x) : Faultless (x.map f) := by
  cases x with
  | error e => exact error (hx e rfl)
  | ok a => exact ok (f a)

end Faultless

/-- No filter of the environment reports a fault in the source. -/
def Environment.FiltersFaultless (env : Environment) : Prop :=
  ∀ {name : String} {filter : Filter}, Entries.get? name env.filters = some filter →
    ∀ v args escaper, Faultless (filter v args escaper)

/-- All filters of the environment are built-in ones, under any names. -/
def Environment.FiltersBuiltin (env : Environment) : Prop :=
  ∀ {name : String} {filter : Filter}, Entries.get? name env.filters = some filter →
    ∃ original, (original, filter) ∈ Filter.builtin

theorem Filter.faultless_of_builtin {name : String} {filter : Filter}
    (h : (name, filter) ∈ Filter.builtin) (v : Value) (args : List Value) (escaper : Escaper) :
    Faultless (filter v args escaper) := by
  simp only [Filter.builtin, List.mem_cons, List.not_mem_nil, Prod.mk.injEq, or_false] at h
  rcases h with ⟨_, rfl⟩ | ⟨_, rfl⟩ | ⟨_, rfl⟩ | ⟨_, rfl⟩ | ⟨_, rfl⟩ | ⟨_, rfl⟩ | ⟨_, rfl⟩ | ⟨_, rfl⟩
  case inr.inr.inr.inr.inr.inr.inr =>
    -- only `default` can fail
    cases args with
    | nil => exact .error id
    | cons a more => exact .ok _
  all_goals cases v <;> exact .ok _

theorem Environment.FiltersBuiltin.faultless {env : Environment} (h : env.FiltersBuiltin) :
    env.FiltersFaultless := by
  intro name filter hfilter
  obtain ⟨original, hmem⟩ := h hfilter
  exact Filter.faultless_of_builtin hmem

variable {scope : Scope}

/-! ## No faults -/

theorem Environment.FiltersFaultless.applyFilter {env : Environment} (h : env.FiltersFaultless)
    (name : String) (v : Value) (args : List Value) (escaper : Escaper) :
    Faultless (env.applyFilter name v args escaper) := by
  unfold Environment.applyFilter
  split
  next filter hfilter => exact h hfilter v args escaper
  next => exact .error id

theorem Scope.faultless_lookup (scope : Scope) (path : String) :
    Faultless (scope.lookup path) := by
  unfold Scope.lookup
  split
  · exact .ok _
  · split
    · exact .error id
    · exact .ok _

mutual

/-- An expression that can be evaluated has a value or fails for a reason that is no fault. -/
theorem Expr.faultless_eval (hfilters : scope.env.FiltersFaultless) :
    ∀ (e : Expr), e.Evaluable → Faultless (e.eval scope)
  | .node token children kind filters span, ⟨hsound, hchildren, hargs⟩ => by
    rw [Expr.eval_node]
    refine Faultless.bind ?_ fun v => Expr.faultless_applyAll hfilters filters hargs v
    cases kind with
    | int =>
      obtain ⟨v, hv⟩ : ∃ v, Value.readNumber token.text = .ok v := hsound
      rw [Expr.bareValue, hv]
      exact .ok v
    | float =>
      obtain ⟨v, hv⟩ : ∃ v, Value.readFloat token.text = .ok v := hsound
      rw [Expr.bareValue, hv]
      exact .ok v
    | bool => exact .ok _
    | null => exact .ok _
    | text => exact .ok _
    | path => exact scope.faultless_lookup token.text
    | list => exact (Expr.faultless_evalAll hfilters children hchildren).bind fun _ => .ok _
    | dict =>
      exact (Expr.faultless_evalEntries hfilters span children hsound hchildren).bind
        fun _ => .ok _
    | sum => exact Expr.faultless_evalSum hfilters children hchildren

theorem Expr.faultless_evalAll (hfilters : scope.env.FiltersFaultless) :
    ∀ (es : List Expr), Expr.EveryNodeIn Expr.IsSound es → Faultless (Expr.evalAll scope es)
  | [], _ => by
    rw [Expr.evalAll]
    exact .ok _
  | e :: rest, ⟨he, hrest⟩ => by
    rw [Expr.evalAll]
    refine (Expr.faultless_eval hfilters e he).bind fun v => ?_
    exact (Expr.faultless_evalAll hfilters rest hrest).bind fun _ => .ok _

theorem Expr.faultless_evalEntries (hfilters : scope.env.FiltersFaultless) (span : Span) :
    ∀ (es : List Expr), 2 ∣ es.length → Expr.EveryNodeIn Expr.IsSound es →
      Faultless (Expr.evalEntries scope span es)
  | [], _, _ => by
    rw [Expr.evalEntries]
    exact .ok _
  | [_], heven, _ => absurd (show 2 ∣ 1 from heven) (by decide)
  | key :: e :: rest, heven, ⟨_, he, hrest⟩ => by
    rw [Expr.evalEntries]
    have heven : 2 ∣ rest.length := (Nat.dvd_add_left (Nat.dvd_refl 2)).mp heven
    refine (Expr.faultless_eval hfilters e he).bind fun v => ?_
    exact (Expr.faultless_evalEntries hfilters span rest heven hrest).bind fun _ => .ok _

theorem Expr.faultless_evalSum (hfilters : scope.env.FiltersFaultless) :
    ∀ (es : List Expr), Expr.EveryNodeIn Expr.IsSound es → Faultless (Expr.evalSum scope es)
  | [], _ => by
    rw [Expr.evalSum]
    exact .ok _
  | e :: rest, ⟨he, hrest⟩ => by
    rw [Expr.evalSum]
    refine (Expr.faultless_eval hfilters e he).bind fun v => ?_
    exact Expr.faultless_evalSumFrom hfilters rest hrest v

theorem Expr.faultless_evalSumFrom (hfilters : scope.env.FiltersFaultless) :
    ∀ (es : List Expr), Expr.EveryNodeIn Expr.IsSound es → ∀ v,
      Faultless (Expr.evalSumFrom scope v es)
  | [], _, v => by
    rw [Expr.evalSumFrom]
    exact .ok v
  | e :: rest, ⟨he, hrest⟩, v => by
    rw [Expr.evalSumFrom]
    refine (Expr.faultless_eval hfilters e he).bind fun w => ?_
    exact Expr.faultless_evalSumFrom hfilters rest hrest (v.add w)

theorem Expr.faultless_applyAll (hfilters : scope.env.FiltersFaultless) :
    ∀ (filters : List (FilterCall Expr)), Expr.EveryNodeOf Expr.IsSound filters → ∀ v,
      Faultless (Expr.applyAll scope v filters)
  | [], _, v => by
    rw [Expr.applyAll]
    exact .ok v
  | ⟨name, args, _⟩ :: rest, ⟨hargs, hrest⟩, v => by
    rw [Expr.applyAll]
    refine (Expr.faultless_evalAll hfilters args hargs).bind fun vs => ?_
    refine (hfilters.applyFilter name.text v vs scope.escaper).bind fun w => ?_
    exact Expr.faultless_applyAll hfilters rest hrest w

end

theorem Argument.faultless_evalKeyed (hfilters : scope.env.FiltersFaultless) :
    ∀ (args : List Argument), (∀ a ∈ args, a.value.Evaluable) →
      Faultless (Argument.evalKeyed scope args)
  | [], _ => .ok _
  | a :: rest, h => by
    obtain ⟨ha, hrest⟩ := List.forall_mem_cons.mp h
    rw [Argument.evalKeyed]
    refine (Expr.faultless_eval hfilters a.value ha).bind fun v => ?_
    exact (Argument.faultless_evalKeyed hfilters rest hrest).bind fun _ => .ok _

theorem Argument.faultless_evalList (hfilters : scope.env.FiltersFaultless) {args : List Argument}
    (h : ∀ a ∈ args, a.value.Evaluable) : Faultless (Argument.evalList scope args) :=
  (Argument.faultless_evalKeyed hfilters args h).map

/-! ## No places -/

mutual

/-- The value of an expression that can be evaluated does not depend on places. -/
theorem Expr.eval_placeless :
    ∀ (e : Expr), e.Evaluable → e.placeless.eval scope = e.eval scope
  | .node token children kind filters span, ⟨hsound, hchildren, hargs⟩ => by
    rw [Expr.placeless, Expr.eval_node, Expr.eval_node]
    have hbare : Expr.bareValue scope token.bare (Expr.placelessAll children) .none kind =
        Expr.bareValue scope token children span kind := by
      cases kind with
      | list => rw [Expr.bareValue, Expr.bareValue, Expr.evalAll_placeless children hchildren]
      | dict =>
        rw [Expr.bareValue, Expr.bareValue,
          Expr.evalEntries_placeless .none span children hsound hchildren]
      | sum => exact Expr.evalSum_placeless children hchildren
      | _ => rfl
    rw [hbare]
    exact congrArg (_ >>= ·) (funext fun v => Expr.applyAll_placeless filters hargs v)

theorem Expr.evalAll_placeless :
    ∀ (es : List Expr), Expr.EveryNodeIn Expr.IsSound es →
      Expr.evalAll scope (Expr.placelessAll es) = Expr.evalAll scope es
  | [], _ => by rw [Expr.placelessAll]
  | e :: rest, ⟨he, hrest⟩ => by
    rw [Expr.placelessAll, Expr.evalAll, Expr.evalAll, Expr.eval_placeless e he,
      Expr.evalAll_placeless rest hrest]

/-- The place of a dict is shown only if it has a key too many. -/
theorem Expr.evalEntries_placeless (span span' : Span) :
    ∀ (es : List Expr), 2 ∣ es.length → Expr.EveryNodeIn Expr.IsSound es →
      Expr.evalEntries scope span (Expr.placelessAll es) = Expr.evalEntries scope span' es
  | [], _, _ => by rw [Expr.placelessAll, Expr.evalEntries, Expr.evalEntries]
  | [_], heven, _ => absurd (show 2 ∣ 1 from heven) (by decide)
  | .node token _ _ _ _ :: e :: rest, heven, ⟨_, he, hrest⟩ => by
    have heven : 2 ∣ rest.length := (Nat.dvd_add_left (Nat.dvd_refl 2)).mp heven
    rw [Expr.placelessAll, Expr.placelessAll, Expr.evalEntries, Expr.evalEntries,
      Expr.eval_placeless e he, Expr.evalEntries_placeless span span' rest heven hrest]
    rfl

theorem Expr.evalSum_placeless :
    ∀ (es : List Expr), Expr.EveryNodeIn Expr.IsSound es →
      Expr.evalSum scope (Expr.placelessAll es) = Expr.evalSum scope es
  | [], _ => by rw [Expr.placelessAll]
  | e :: rest, ⟨he, hrest⟩ => by
    rw [Expr.placelessAll, Expr.evalSum, Expr.evalSum, Expr.eval_placeless e he]
    exact congrArg (_ >>= ·) (funext fun v => Expr.evalSumFrom_placeless rest hrest v)

theorem Expr.evalSumFrom_placeless :
    ∀ (es : List Expr), Expr.EveryNodeIn Expr.IsSound es → ∀ v,
      Expr.evalSumFrom scope v (Expr.placelessAll es) = Expr.evalSumFrom scope v es
  | [], _, v => by rw [Expr.placelessAll]
  | e :: rest, ⟨he, hrest⟩, v => by
    rw [Expr.placelessAll, Expr.evalSumFrom, Expr.evalSumFrom, Expr.eval_placeless e he]
    exact congrArg (_ >>= ·) (funext fun w => Expr.evalSumFrom_placeless rest hrest (v.add w))

theorem Expr.applyAll_placeless :
    ∀ (filters : List (FilterCall Expr)), Expr.EveryNodeOf Expr.IsSound filters → ∀ v,
      Expr.applyAll scope v (Expr.placelessFilters filters) = Expr.applyAll scope v filters
  | [], _, v => by rw [Expr.placelessFilters]
  | ⟨name, args, _⟩ :: rest, ⟨hargs, hrest⟩, v => by
    rw [Expr.placelessFilters, Expr.applyAll, Expr.applyAll, Expr.evalAll_placeless args hargs]
    refine congrArg (_ >>= ·) (funext fun vs => ?_)
    exact congrArg (_ >>= ·) (funext fun w => Expr.applyAll_placeless rest hrest w)

end

theorem Argument.evalKeyed_placeless :
    ∀ (args : List Argument), (∀ a ∈ args, a.value.Evaluable) →
      Argument.evalKeyed scope (args.map Argument.placeless) = Argument.evalKeyed scope args
  | [], _ => rfl
  | a :: rest, h => by
    obtain ⟨ha, hrest⟩ := List.forall_mem_cons.mp h
    have hvalue : a.placeless.value.eval scope = a.value.eval scope := Expr.eval_placeless _ ha
    have hkey : a.placeless.key.map (·.text) = a.key.map (·.text) := by
      rw [Argument.placeless, Option.map_map]
      rfl
    rw [List.map_cons, Argument.evalKeyed, Argument.evalKeyed, hvalue, hkey,
      Argument.evalKeyed_placeless rest hrest]

/-- Arguments that differ in places only have the same values. -/
theorem Argument.evalList_eq_of_placeless {args args' : List Argument}
    (h : args.map Argument.placeless = args'.map Argument.placeless)
    (hargs : ∀ a ∈ args, a.value.Evaluable) (hargs' : ∀ a ∈ args', a.value.Evaluable) :
    Argument.evalList scope args = Argument.evalList scope args' := by
  unfold Argument.evalList
  rw [← Argument.evalKeyed_placeless args hargs, h, Argument.evalKeyed_placeless args' hargs']

/-- Texts that are read as the same arguments, up to places, have the same values. -/
theorem Argument.evalList_eq_of_readList {text text' : String} {args args' : List Argument}
    (hargs : Argument.readList text = .ok args) (hargs' : Argument.readList text' = .ok args')
    (h : args.map Argument.placeless = args'.map Argument.placeless) :
    Argument.evalList scope args = Argument.evalList scope args' :=
  Argument.evalList_eq_of_placeless h (Argument.evaluable_of_readList hargs)
    (Argument.evaluable_of_readList hargs')

end TagTemplate
