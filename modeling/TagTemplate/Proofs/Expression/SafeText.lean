import TagTemplate.Proofs.Success
import TagTemplate.Proofs.Value.EverySafe

/-!
# The safe text that expressions give

Evaluating an expression makes safe text in two ways only: it is found in the variables, or a
filter makes it. So whatever holds of all safe text in the variables, and is kept by the filters
that the expression calls, holds of all safe text in its value (`Expr.everySafe_eval`), and of all
safe text in the arguments of a tag (`Argument.everySafe_evalList`).

`EveryFilter q` says of an expression that the names of all filters in it, at any depth, satisfy
`q`.
-/

namespace TagTemplate

/-- The value of an expression before its filters are applied. -/
def Expr.bareValue (scope : Scope) (token : Token) (children : List Expr) (span : Span) :
    Expr.Kind → Except TemplateError Value
  | .int => Value.readNumber token.text
  | .float => Value.readFloat token.text
  | .bool => .ok (Value.readBool token.text)
  | .null => .ok .null
  | .text => .ok (.text token.text)
  | .path => scope.lookup token.text
  | .list => do .ok (.list (← Expr.evalAll scope children))
  | .dict => do .ok (.ofEntries (← Expr.evalEntries scope span children))
  | .sum => Expr.evalSum scope children

theorem Expr.eval_node (scope : Scope) (token : Token) (children : List Expr) (kind : Expr.Kind)
    (filters : List (FilterCall Expr)) (span : Span) :
    (node token children kind filters span).eval scope =
      Expr.bareValue scope token children span kind >>=
        fun v => Expr.applyAll scope v filters := by
  rw [Expr.eval.eq_def]
  cases kind with
  | list => cases h : Expr.evalAll scope children <;> simp only [bareValue, h] <;> rfl
  | dict => cases h : Expr.evalEntries scope span children <;> simp only [bareValue, h] <;> rfl
  | _ => rfl

theorem Expr.eval_unfiltered (scope : Scope) (token : Token) (children : List Expr)
    (kind : Expr.Kind) (span : Span) :
    (node token children kind [] span).eval scope =
      Expr.bareValue scope token children span kind := by
  rw [Expr.eval_node]
  cases Expr.bareValue scope token children span kind with
  | error e => rfl
  | ok v =>
    show Expr.applyAll scope v [] = _
    rw [Expr.applyAll]

mutual

/-- The names of all filters in an expression satisfy `q`. -/
def Expr.EveryFilter (q : String → Prop) : Expr → Prop
  | .node _ children _ filters _ => Expr.EveryFilterIn q children ∧ Expr.EveryFilterOf q filters

/-- The names of all filters in several expressions satisfy `q`. -/
def Expr.EveryFilterIn (q : String → Prop) : List Expr → Prop
  | [] => True
  | e :: rest => e.EveryFilter q ∧ Expr.EveryFilterIn q rest

/-- The names of some filters and of all filters in their arguments satisfy `q`. -/
def Expr.EveryFilterOf (q : String → Prop) : List (FilterCall Expr) → Prop
  | [] => True
  | ⟨name, args, _⟩ :: rest => q name.text ∧ Expr.EveryFilterIn q args ∧ Expr.EveryFilterOf q rest

end

/-- What has to be known of a scope: `p` holds of all safe text in the variables, and filters with
a name in `q` keep it. -/
structure Scope.Keeps (scope : Scope) (p : SafeText → Prop) (q : String → Prop) : Prop where
  locals : scope.locals.EverySafe p
  filters : ∀ {name : String} {v w : Value} {args : List Value}, q name → v.EverySafe p →
    (∀ a ∈ args, a.EverySafe p) → scope.env.applyFilter name v args scope.escaper = .ok w →
      w.EverySafe p

variable {scope : Scope} {p : SafeText → Prop} {q : String → Prop}

theorem Scope.everySafe_follow :
    ∀ (path : List String) {v w : Value}, v.EverySafe p → Scope.follow v path = some w →
      w.EverySafe p
  | [], v, w, hv, h => Option.some.inj h ▸ hv
  | key :: rest, v, w, hv, h => by
    obtain ⟨u, hu, hw⟩ := Option.bind_eq_some_iff.mp h
    exact Scope.everySafe_follow rest (hv.get? hu) hw

theorem Scope.Keeps.lookup (hs : scope.Keeps p q) {path : String} {v : Value}
    (h : scope.lookup path = .ok v) : v.EverySafe p := by
  unfold Scope.lookup at h
  split at h
  next w hw =>
    cases h
    exact Scope.everySafe_follow _ hs.locals hw
  next =>
    split at h
    · cases h
    · cases h
      trivial

theorem Value.everySafe_readFloat {text : String} {v : Value} (h : Value.readFloat text = .ok v) :
    v.EverySafe p := by
  unfold Value.readFloat at h
  split at h <;> cases h
  trivial

theorem Value.everySafe_readNumber {text : String} {v : Value}
    (h : Value.readNumber text = .ok v) : v.EverySafe p := by
  unfold Value.readNumber at h
  split at h
  · cases h
    trivial
  · exact Value.everySafe_readFloat h

mutual

/-- All safe text in the value of an expression satisfies `p`. -/
theorem Expr.everySafe_eval (hs : scope.Keeps p q) :
    ∀ (e : Expr) {v : Value}, e.EveryFilter q → e.eval scope = .ok v → v.EverySafe p
  | .node token children kind filters span, v, hq, h => by
    rw [Expr.eval_node] at h
    obtain ⟨w, hw, hv⟩ := bind_eq_ok h
    -- filters keep what holds of the value they are applied to
    refine Expr.everySafe_applyAll hs filters hq.2 ?_ hv
    cases kind with
    | int => exact Value.everySafe_readNumber hw
    | float => exact Value.everySafe_readFloat hw
    | bool => cases hw; trivial
    | null => cases hw; trivial
    | text => cases hw; trivial
    | path => exact hs.lookup hw
    | list =>
      obtain ⟨vs, hvs, hlist⟩ := bind_eq_ok hw
      cases hlist
      exact Value.everySafe_list.mpr (Expr.everySafe_evalAll hs children hq.1 hvs)
    | dict =>
      obtain ⟨entries, hentries, hdict⟩ := bind_eq_ok hw
      cases hdict
      exact Value.everySafe_ofEntries (Expr.everySafe_evalEntries hs span children hq.1 hentries)
    | sum => exact Expr.everySafe_evalSum hs children hq.1 hw

theorem Expr.everySafe_evalAll (hs : scope.Keeps p q) :
    ∀ (es : List Expr) {vs : List Value}, Expr.EveryFilterIn q es →
      Expr.evalAll scope es = .ok vs → ∀ v ∈ vs, v.EverySafe p
  | [], vs, _, h => by
    rw [Expr.evalAll] at h
    cases h
    exact fun v hv => absurd hv List.not_mem_nil
  | e :: rest, vs, hq, h => by
    rw [Expr.evalAll] at h
    obtain ⟨v, hv, h⟩ := bind_eq_ok h
    obtain ⟨more, hmore, h⟩ := bind_eq_ok h
    cases h
    exact List.forall_mem_cons.mpr ⟨Expr.everySafe_eval hs e hq.1 hv,
      Expr.everySafe_evalAll hs rest hq.2 hmore⟩

theorem Expr.everySafe_evalEntries (hs : scope.Keeps p q) (span : Span) :
    ∀ (es : List Expr) {entries : List (String × Value)}, Expr.EveryFilterIn q es →
      Expr.evalEntries scope span es = .ok entries → ∀ e ∈ entries, e.2.EverySafe p
  | [], entries, _, h => by
    rw [Expr.evalEntries] at h
    cases h
    exact fun e he => absurd he List.not_mem_nil
  | [_], entries, _, h => by
    rw [Expr.evalEntries] at h
    cases h
  | key :: e :: rest, entries, hq, h => by
    rw [Expr.evalEntries] at h
    obtain ⟨v, hv, h⟩ := bind_eq_ok h
    obtain ⟨more, hmore, h⟩ := bind_eq_ok h
    cases h
    exact List.forall_mem_cons.mpr ⟨Expr.everySafe_eval hs e hq.2.1 hv,
      Expr.everySafe_evalEntries hs span rest hq.2.2 hmore⟩

theorem Expr.everySafe_evalSum (hs : scope.Keeps p q) :
    ∀ (es : List Expr) {v : Value}, Expr.EveryFilterIn q es →
      Expr.evalSum scope es = .ok v → v.EverySafe p
  | [], v, _, h => by
    rw [Expr.evalSum] at h
    cases h
    trivial
  | e :: rest, v, hq, h => by
    rw [Expr.evalSum] at h
    obtain ⟨w, hw, h⟩ := bind_eq_ok h
    exact Expr.everySafe_evalSumFrom hs rest (Expr.everySafe_eval hs e hq.1 hw) hq.2 h

theorem Expr.everySafe_evalSumFrom (hs : scope.Keeps p q) :
    ∀ (es : List Expr) {v w : Value}, v.EverySafe p → Expr.EveryFilterIn q es →
      Expr.evalSumFrom scope v es = .ok w → w.EverySafe p
  | [], v, w, hv, _, h => by
    rw [Expr.evalSumFrom] at h
    cases h
    exact hv
  | e :: rest, v, w, hv, hq, h => by
    rw [Expr.evalSumFrom] at h
    obtain ⟨u, hu, h⟩ := bind_eq_ok h
    exact Expr.everySafe_evalSumFrom hs rest (Value.everySafe_add v u) hq.2 h

theorem Expr.everySafe_applyAll (hs : scope.Keeps p q) :
    ∀ (filters : List (FilterCall Expr)) {v w : Value}, Expr.EveryFilterOf q filters →
      v.EverySafe p → Expr.applyAll scope v filters = .ok w → w.EverySafe p
  | [], v, w, _, hv, h => by
    rw [Expr.applyAll] at h
    cases h
    exact hv
  | ⟨name, args, _⟩ :: rest, v, w, hq, hv, h => by
    rw [Expr.applyAll] at h
    obtain ⟨vs, hvs, h⟩ := bind_eq_ok h
    obtain ⟨u, hu, h⟩ := bind_eq_ok h
    have hargs := Expr.everySafe_evalAll hs args hq.2.1 hvs
    exact Expr.everySafe_applyAll hs rest hq.2.2 (hs.filters hq.1 hv hargs hu) h

end

/-! ## Arguments of a tag -/

theorem Argument.everySafe_evalKeyed (hs : scope.Keeps p q) :
    ∀ (args : List Argument) {vs : List (Option String × Value)},
      (∀ a ∈ args, a.value.EveryFilter q) → Argument.evalKeyed scope args = .ok vs →
        ∀ v ∈ vs, v.2.EverySafe p
  | [], vs, _, h => by
    rw [Argument.evalKeyed] at h
    cases h
    exact fun v hv => absurd hv List.not_mem_nil
  | a :: rest, vs, hq, h => by
    rw [Argument.evalKeyed] at h
    obtain ⟨v, hv, h⟩ := bind_eq_ok h
    obtain ⟨more, hmore, h⟩ := bind_eq_ok h
    cases h
    obtain ⟨ha, hrest⟩ := List.forall_mem_cons.mp hq
    exact List.forall_mem_cons.mpr ⟨Expr.everySafe_eval hs a.value ha hv,
      Argument.everySafe_evalKeyed hs rest hrest hmore⟩

theorem Argument.everySafe_arrange {vs : List (Option String × Value)}
    (h : ∀ v ∈ vs, v.2.EverySafe p) : ∀ v ∈ Argument.arrange vs, v.EverySafe p := by
  have hpositional : ∀ v ∈ vs.filterMap fun kv => if kv.1.isNone then some kv.2 else none,
      v.EverySafe p := by
    intro v hv
    obtain ⟨kv, hkv, heq⟩ := List.mem_filterMap.mp hv
    split at heq <;> cases heq
    exact h kv hkv
  have hkeywords : ∀ e ∈ vs.filterMap fun kv => kv.1.map (·, kv.2), e.2.EverySafe p := by
    intro e he
    obtain ⟨⟨key, v⟩, hkv, heq⟩ := List.mem_filterMap.mp he
    obtain ⟨name, -, rfl⟩ := Option.map_eq_some_iff.mp heq
    exact h (key, v) hkv
  intro v hv
  rw [Argument.arrange] at hv
  split at hv
  · exact hpositional v hv
  · rcases List.mem_append.mp hv with hv | hv
    · exact hpositional v hv
    · cases List.mem_singleton.mp hv
      -- the map of keywords holds their values and the mark that it is one
      refine Value.everySafe_map.mpr fun e he => ?_
      rcases Entries.mem_of_mem_insert he with rfl | he
      · trivial
      · exact hkeywords e (Entries.mem_of_mem_ofList he)

/-- All safe text in the arguments of a tag satisfies `p`. -/
theorem Argument.everySafe_evalList (hs : scope.Keeps p q) {args : List Argument}
    {vs : List Value} (hq : ∀ a ∈ args, a.value.EveryFilter q)
    (h : Argument.evalList scope args = .ok vs) : ∀ v ∈ vs, v.EverySafe p := by
  obtain ⟨keyed, hkeyed, rfl⟩ := map_eq_ok h
  exact Argument.everySafe_arrange (Argument.everySafe_evalKeyed hs args hq hkeyed)

end TagTemplate
