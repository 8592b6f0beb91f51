import TagTemplate.Expression.Evaluate
import TagTemplate.Proofs.Entries
import TagTemplate.Proofs.Success

/-!
# Arguments with and without a key

Arguments are evaluated from left to right, whether they have a key or not, and the first error ends
that. Then the keys sort them: the values without a key stay in their order, and all others go into
one map behind them, which has a mark among its entries.

> `evalList_collects`: the error is that of the leftmost argument that fails. If none does, the
> values are those without a key and, if there are keys, one map of the names in the order in which
> each came up first, with its last value. How the arguments with a key stand between the others
> makes no difference.
-/

namespace TagTemplate.Argument

/-- The expressions that are given without a key, in order. -/
def positional (args : List Argument) : List Expr :=
  args.filterMap fun a => if a.isKeyword then none else some a.value

/-- The names and expressions that are given with a key, in order. -/
def keywords (args : List Argument) : List (String × Expr) :=
  args.filterMap fun a => a.key.map fun key => (key.text, a.value)

/-- The entries of the map that keywords with these names and values are collected into. -/
structure IsCollected (settings : List (String × Value)) (entries : Entries Value) : Prop where
  /-- Every name stands once, where it came up first. The name of the mark is the last, unless a
  keyword has it. -/
  names : Entries.names entries =
    (Entries.names settings ++ [Attribute.reservedName]).eraseDups
  /-- The mark is set, even if a keyword of its name says otherwise. -/
  mark : (Attribute.reservedName, .bool true) ∈ entries
  /-- Any other name has the value that it was given last. -/
  last : ∀ {name : String} {v : Value}, (name, v) ∈ entries → name ≠ Attribute.reservedName →
    ∃ before after, settings = before ++ (name, v) :: after ∧ name ∉ Entries.names after

/-- Setting the mark last collects keywords. -/
theorem isCollected_insert (settings : List (String × Value)) :
    IsCollected settings
      (Entries.insert Attribute.reservedName (.bool true) (Entries.ofList settings)) := by
  have hall : Entries.insert Attribute.reservedName (.bool true) (Entries.ofList settings) =
      Entries.ofList (settings ++ [(Attribute.reservedName, .bool true)]) := by
    rw [Entries.ofList, Entries.ofList, Entries.insertAll_append]
    rfl
  rw [hall]
  refine ⟨?_, ?_, ?_⟩
  · rw [Entries.names_ofList, Entries.names, List.map_append]
    rfl
  · exact Entries.mem_ofList_iff.mpr ⟨settings, [], rfl, List.not_mem_nil⟩
  · intro name v h hne
    obtain ⟨before, after, hsplit, hafter⟩ := Entries.mem_ofList_iff.mp h
    rcases List.eq_nil_or_concat after with rfl | ⟨later, last, rfl⟩
    · obtain ⟨-, hlast⟩ := List.append_inj' hsplit rfl
      cases hlast
      exact absurd rfl hne
    · rw [List.concat_eq_append] at hsplit hafter
      rw [← List.cons_append, ← List.append_assoc] at hsplit
      obtain ⟨hsettings, -⟩ := List.append_inj' hsplit rfl
      refine ⟨before, later, hsettings, fun hmem => hafter ?_⟩
      rw [Entries.names, List.map_append]
      exact List.mem_append_left _ hmem

variable {scope : Scope} {args : List Argument}

/-- All expressions are given without a key or with one. -/
theorem forall_mem_iff {p : Expr → Prop} :
    (∀ a ∈ args, p a.value) ↔
      (∀ e ∈ positional args, p e) ∧ ∀ setting ∈ keywords args, p setting.2 := by
  induction args with
  | nil => simp [positional, keywords]
  | cons a rest ih =>
    rw [List.forall_mem_cons, ih]
    cases hkey : a.key with
    | none =>
      simp [positional, keywords, isKeyword, hkey, and_assoc]
    | some key =>
      simp [positional, keywords, isKeyword, hkey, and_left_comm]

/-! ## Evaluation -/

theorem evalKeyed_of_forall {value : Expr → Value}
    (h : ∀ a ∈ args, a.value.eval scope = .ok (value a.value)) :
    evalKeyed scope args = .ok (args.map fun a => (a.key.map (·.text), value a.value)) := by
  induction args with
  | nil => rfl
  | cons a rest ih =>
    obtain ⟨ha, hrest⟩ := List.forall_mem_cons.mp h
    rw [evalKeyed, ha, ih hrest]
    rfl

/-- The arguments in front of the one that fails have values, and those behind it have no part. -/
theorem evalKeyed_eq_error_iff {error : TemplateError} :
    evalKeyed scope args = .error error ↔
      ∃ before a after, args = before ++ a :: after ∧
        (∀ b ∈ before, ∃ v, b.value.eval scope = .ok v) ∧ a.value.eval scope = .error error := by
  induction args with
  | nil =>
    refine ⟨fun h => (by cases h), ?_⟩
    rintro ⟨before, a, after, hsplit, -, -⟩
    exact absurd hsplit.symm (List.append_ne_nil_of_right_ne_nil _ (List.cons_ne_nil _ _))
  | cons a rest ih =>
    rw [evalKeyed]
    constructor
    · intro h
      cases ha : a.value.eval scope with
      | error e =>
        rw [ha] at h
        cases h
        exact ⟨[], a, rest, rfl, fun _ hb => absurd hb List.not_mem_nil, ha⟩
      | ok v =>
        rw [ha] at h
        cases hrest : evalKeyed scope rest with
        | ok vs =>
          rw [hrest] at h
          cases h
        | error e =>
          rw [hrest] at h
          cases h
          obtain ⟨before, failing, after, rfl, hbefore, hfailing⟩ := ih.mp hrest
          exact ⟨a :: before, failing, after, rfl, List.forall_mem_cons.mpr ⟨⟨v, ha⟩, hbefore⟩,
            hfailing⟩
    · rintro ⟨before, failing, after, hsplit, hbefore, hfailing⟩
      cases before with
      | nil =>
        cases hsplit
        rw [hfailing]
        rfl
      | cons b before =>
        cases hsplit
        obtain ⟨⟨v, hv⟩, hbefore⟩ := List.forall_mem_cons.mp hbefore
        rw [hv, ih.mpr ⟨before, failing, after, rfl, hbefore, hfailing⟩]
        rfl

/-- Arranging sorts the values as the keys sort the arguments. -/
theorem arrange_map (args : List Argument) (value : Expr → Value) :
    arrange (args.map fun a => (a.key.map (·.text), value a.value)) =
      if (keywords args).isEmpty then (positional args).map value
      else (positional args).map value ++
        [.map (Entries.insert Attribute.reservedName (.bool true)
          (Entries.ofList ((keywords args).map fun item => (item.1, value item.2))))] := by
  have hpositional : (args.filterMap fun a =>
      if (a.key.map (·.text)).isNone then some (value a.value) else none) =
        (positional args).map value := by
    rw [positional, List.map_filterMap]
    refine congrArg args.filterMap (funext fun a => ?_)
    cases hkey : a.key <;> simp [isKeyword, hkey]
  have hkeywords : (args.filterMap fun a => (a.key.map (·.text)).map (·, value a.value)) =
      (keywords args).map fun item => (item.1, value item.2) := by
    rw [keywords, List.map_filterMap]
    refine congrArg args.filterMap (funext fun a => ?_)
    cases a.key <;> simp
  have hempty : ((keywords args).map fun item => (item.1, value item.2)).isEmpty =
      (keywords args).isEmpty := List.isEmpty_map
  rw [arrange, List.filterMap_map, List.filterMap_map, ← hempty, ← hpositional, ← hkeywords]
  rfl

theorem isEmpty_keywords_iff :
    (keywords args).isEmpty = true ↔ ∀ a ∈ args, a.isKeyword = false := by
  induction args with
  | nil => simp [keywords]
  | cons a rest ih =>
    rw [List.forall_mem_cons, ← ih]
    cases hkey : a.key <;> simp [keywords, isKeyword, hkey]

/-- Arguments with values have values under one function of their expressions. -/
theorem exists_value_of_evalKeyed {vs : List (Option String × Value)}
    (h : evalKeyed scope args = .ok vs) :
    ∃ value : Expr → Value, ∀ a ∈ args, a.value.eval scope = .ok (value a.value) := by
  refine ⟨fun e => (e.eval scope).toOption.getD .null, ?_⟩
  induction args generalizing vs with
  | nil => exact fun a ha => absurd ha List.not_mem_nil
  | cons a rest ih =>
    obtain ⟨v, hv, hmore⟩ := bind_eq_ok h
    obtain ⟨more, hrest, -⟩ := bind_eq_ok hmore
    refine List.forall_mem_cons.mpr ⟨?_, ih hrest⟩
    show a.value.eval scope = .ok ((a.value.eval scope).toOption.getD .null)
    rw [hv]
    rfl

/-- The values of arguments that can all be evaluated. -/
theorem evalList_of_forall {value : Expr → Value}
    (h : ∀ a ∈ args, a.value.eval scope = .ok (value a.value)) :
    evalList scope args =
      .ok (arrange (args.map fun a => (a.key.map (·.text), value a.value))) := by
  rw [evalList, evalKeyed_of_forall h]
  rfl

/-- Arguments with the same expressions without a key, and the same names and expressions with one,
have the same values. -/
theorem evalList_of_interleaved {others : List Argument}
    (hpositional : positional others = positional args)
    (hkeywords : keywords others = keywords args) {vs : List Value}
    (h : evalList scope args = .ok vs) : evalList scope others = .ok vs := by
  obtain ⟨keyed, hkeyed, -⟩ := map_eq_ok h
  obtain ⟨value, hvalue⟩ := exists_value_of_evalKeyed hkeyed
  have hothers : ∀ a ∈ others, a.value.eval scope = .ok (value a.value) := by
    rw [forall_mem_iff (p := fun e => e.eval scope = .ok (value e))] at hvalue ⊢
    rwa [hpositional, hkeywords]
  rw [evalList_of_forall hvalue, arrange_map] at h
  rw [evalList_of_forall hothers, arrange_map, hpositional, hkeywords, h]

/-- Evaluating arguments gives the error of the leftmost that fails. Otherwise it gives the values
without a key in their order and then, if there is a key, one map of the values with a key. Nothing
depends on how arguments with a key and without one stand among each other. -/
theorem evalList_collects (scope : Scope) (args : List Argument) :
    (∀ error, evalList scope args = .error error ↔
      ∃ before a after, args = before ++ a :: after ∧
        (∀ b ∈ before, ∃ v, b.value.eval scope = .ok v) ∧ a.value.eval scope = .error error) ∧
    (∀ value : Expr → Value, (∀ a ∈ args, a.value.eval scope = .ok (value a.value)) →
      ((∀ a ∈ args, a.isKeyword = false) →
        evalList scope args = .ok ((positional args).map value)) ∧
      ((∃ a ∈ args, a.isKeyword = true) →
        ∃ entries, evalList scope args = .ok ((positional args).map value ++ [.map entries]) ∧
          IsCollected ((keywords args).map fun item => (item.1, value item.2)) entries)) ∧
    ∀ others, positional others = positional args → keywords others = keywords args →
      ∀ vs, evalList scope args = .ok vs → evalList scope others = .ok vs := by
  refine ⟨fun error => ?_, fun value hvalue => ?_, fun others hpositional hkeywords vs h => ?_⟩
  · rw [← evalKeyed_eq_error_iff, evalList]
    cases evalKeyed scope args with
    | error e => exact ⟨fun h => (by cases h; rfl), fun h => (by cases h; rfl)⟩
    | ok vs => exact ⟨fun h => (by cases h), fun h => (by cases h)⟩
  · rw [evalList_of_forall hvalue, arrange_map]
    constructor
    · intro hnone
      rw [if_pos (isEmpty_keywords_iff.mpr hnone)]
    · rintro ⟨a, ha, hkey⟩
      have hsome : ¬ (keywords args).isEmpty = true := by
        intro hempty
        rw [isEmpty_keywords_iff.mp hempty a ha] at hkey
        cases hkey
      rw [if_neg hsome]
      exact ⟨_, rfl, isCollected_insert _⟩
  · exact evalList_of_interleaved hpositional hkeywords h

/-- An argument that is a text, with a key or without one, at the beginning of a source. -/
def ofText (key : Option String) (text : String) : Argument :=
  let span : Span := ⟨.start, 0⟩
  ⟨key.map fun name => ⟨name, span⟩, .plain ⟨text, span⟩ .text [], span⟩

/-- A key that is given twice, with the name of the mark as a key in between. -/
def interleaved : List Argument :=
  [ofText (some "a") "1", ofText none "x", ofText (some "__keywords") "2", ofText (some "a") "3",
    ofText none "y", ofText (some "b") "4"]

/-- The same arguments, those without a key first. -/
def sorted : List Argument :=
  [ofText none "x", ofText none "y", ofText (some "a") "1", ofText (some "__keywords") "2",
    ofText (some "a") "3", ofText (some "b") "4"]

/-- The first `a` keeps its place and has the last value, and so does the mark. -/
theorem evalList_interleaved (scope : Scope) :
    evalList scope interleaved = .ok [.text "x", .text "y",
        .map [("a", .text "3"), ("__keywords", .bool true), ("b", .text "4")]] ∧
      evalList scope sorted = evalList scope interleaved ∧
      ∃ entries, evalList scope sorted = .ok ([.text "x", .text "y"] ++ [.map entries]) ∧
        Entries.names entries = ["a", "__keywords", "b"] := by
  have hvalues : evalList scope interleaved = .ok [.text "x", .text "y",
      .map [("a", .text "3"), ("__keywords", .bool true), ("b", .text "4")]] := rfl
  obtain ⟨-, -, hsame⟩ := evalList_collects scope interleaved
  obtain ⟨-, hcollects, -⟩ := evalList_collects scope sorted
  have htexts : ∀ a ∈ sorted, a.value.eval scope = .ok (.text a.value.token.text) := by
    intro a ha
    simp only [sorted, List.mem_cons, List.not_mem_nil, or_false] at ha
    rcases ha with rfl | rfl | rfl | rfl | rfl | rfl <;> rfl
  obtain ⟨entries, hentries, hcollected⟩ := (hcollects (fun e => .text e.token.text) htexts).2
    ⟨ofText (some "b") "4", by simp [sorted], rfl⟩
  refine ⟨hvalues, ?_, entries, hentries, ?_⟩
  · rw [hsame sorted rfl rfl _ hvalues, hvalues]
  · rw [hcollected.names]
    decide

end TagTemplate.Argument
