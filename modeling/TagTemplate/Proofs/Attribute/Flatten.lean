import TagTemplate.Proofs.Attribute.ValueTokens

/-!
# Lists in an attribute list

A list may stand in an attribute list in two places: as an element, whose entries are flags, and under
a name in a map, whose entries are values. Both are flattened, by one level (`IsInner`). What cannot be
flattened is refused, and nothing else is:

> `writeValue_flattens`: an attribute list is accepted if and only if none of these lists holds a list
> or a map. Then its text stays the same without the elements that name nothing, without the nulls in
> those lists, and with the entries of a list in place of the list.

The same kind of value means different things in different places. Null and the truth values name
nothing as elements, but a truth value in a list is a flag or a value like any other; only null is
dropped there. So a list with a truth value cannot be put in place of its entries.
-/

namespace TagTemplate

namespace Value

/-- Is the value a list or a map? -/
def isCollection : Value → Bool
  | list _ => true
  | map _ => true
  | _ => false

/-- If the value is a list, it holds no list and no map. -/
def IsFlat (v : Value) : Prop :=
  ∀ entries, v = .list entries → ∀ e ∈ entries, e.isCollection = false

theorem isFlat_of_ne_list {v : Value} (h : ∀ entries, v ≠ .list entries) : v.IsFlat :=
  fun entries heq => absurd heq (h entries)

end Value

namespace Attribute

/-- The lists that are flattened: the elements of an attribute list, and the values in its maps. -/
inductive IsInner (values : List Value) : List Value → Prop
  | element {entries : List Value} (h : .list entries ∈ values) : IsInner values entries
  | field {fields : List (String × Value)} {name : String} {entries : List Value}
      (hmap : .map fields ∈ values) (h : (name, .list entries) ∈ fields) : IsInner values entries

/-- Does the value name an attribute, or several? -/
def namesAttribute : Value → Bool
  | .null => false
  | .bool _ => false
  | _ => true

/-- A list without nulls. -/
def withoutNulls : Value → Value
  | .list entries => .list (entries.filter fun e => !e.isNull)
  | v => v

/-- A list without nulls, or a map without nulls in its lists. -/
def elementWithoutNulls : Value → Value
  | .map fields => .map (fields.map fun (name, v) => (name, withoutNulls v))
  | v => withoutNulls v

/-! ## What is accepted -/

theorem Scalar.ofItems_cons (v : Value) (rest : List Value) :
    Scalar.ofItems (v :: rest) =
      if v.isNull then Scalar.ofItems rest
      else match Scalar.ofValue? v with
        | some s => (Scalar.ofItems rest).map (s :: ·)
        | none => .error (.nested v.kind) := by
  cases v <;> rfl

theorem Scalar.ofItems_ok_iff {entries : List Value} :
    (∃ scalars, Scalar.ofItems entries = .ok scalars) ↔
      ∀ e ∈ entries, e.isCollection = false := by
  induction entries with
  | nil => exact ⟨fun _ e he => absurd he List.not_mem_nil, fun _ => ⟨[], rfl⟩⟩
  | cons v rest ih =>
    rw [List.forall_mem_cons, ← ih, Scalar.ofItems_cons]
    cases v <;> simp [Value.isNull, Scalar.ofValue?, Value.isCollection, exists_map_eq_ok_iff]

theorem isFlat_list {entries : List Value} :
    (Value.list entries).IsFlat ↔ ∃ scalars, Scalar.ofItems entries = .ok scalars := by
  rw [Scalar.ofItems_ok_iff]
  constructor
  · intro h
    exact h entries rfl
  · intro h more heq
    cases heq
    exact h

section Accepted

variable (escaper : Escaper)

theorem fieldTokens_ok_iff {field : String × Value} :
    (∃ ts, fieldTokens escaper field = .ok ts) ↔ field.2.IsFlat := by
  obtain ⟨name, v⟩ := field
  rw [fieldTokens, exists_map_eq_ok_iff]
  cases v with
  | list entries => rw [isFlat_list, Content.ofValue, exists_map_eq_ok_iff]
  | _ =>
    refine ⟨fun _ => Value.isFlat_of_ne_list fun _ h => ?_, fun _ => ⟨_, rfl⟩⟩
    cases h

theorem valueTokens_ok_iff {v : Value} :
    (∃ ts, valueTokens escaper v = .ok ts) ↔
      v.IsFlat ∧ ∀ fields, v = .map fields → ∀ field ∈ fields, field.2.IsFlat := by
  cases v with
  | list entries =>
    rw [valueTokens_list, exists_map_eq_ok_iff, isFlat_list]
    exact ⟨fun h => ⟨h, fun _ heq => by cases heq⟩, fun h => h.1⟩
  | map fields =>
    rw [valueTokens_map, collect_ok_iff]
    constructor
    · intro h
      refine ⟨Value.isFlat_of_ne_list fun _ heq => ?_, fun more heq field hfield => ?_⟩
      · cases heq
      · cases heq
        exact (fieldTokens_ok_iff escaper).mp (h field hfield)
    · intro h field hfield
      exact (fieldTokens_ok_iff escaper).mpr (h.2 fields rfl field hfield)
  | _ =>
    refine ⟨fun _ => ⟨Value.isFlat_of_ne_list fun _ h => ?_, fun _ h => ?_⟩, fun _ => ⟨_, rfl⟩⟩
    · cases h
    · cases h

/-- Every list that is flattened is flat if and only if no element is refused. -/
theorem forall_isInner_iff {values : List Value} :
    (∀ entries, IsInner values entries → ∀ e ∈ entries, e.isCollection = false) ↔
      ∀ v ∈ values, ∃ ts, valueTokens escaper v = .ok ts := by
  constructor
  · intro h v hv
    refine (valueTokens_ok_iff escaper).mpr ⟨?_, ?_⟩
    · rintro entries rfl
      exact h entries (.element hv)
    · rintro fields rfl ⟨name, w⟩ hfield entries rfl
      exact h entries (.field hv hfield)
  · intro h entries hentries
    cases hentries with
    | element hv => exact ((valueTokens_ok_iff escaper).mp (h _ hv)).1 entries rfl
    | field hmap hfield =>
      exact ((valueTokens_ok_iff escaper).mp (h _ hmap)).2 _ rfl _ hfield entries rfl

theorem ofListValue_ok_iff {values : List Value} :
    (∃ items, Item.ofListValue (.list values) = .ok items) ↔
      ∀ v ∈ values, ∃ ts, valueTokens escaper v = .ok ts := by
  rw [← collect_ok_iff, collect_valueTokens, exists_map_eq_ok_iff]
  rfl

end Accepted

/-! ## What leaves the text as it is -/

section Text

variable (escaper : Escaper)

theorem Scalar.ofItems_withoutNulls (entries : List Value) :
    Scalar.ofItems (entries.filter fun e => !e.isNull) = Scalar.ofItems entries := by
  induction entries with
  | nil => rfl
  | cons v rest ih =>
    rw [Scalar.ofItems_cons]
    by_cases hnull : v.isNull = true
    · rw [List.filter_cons_of_neg (by simp [hnull]), if_pos hnull, ih]
    · rw [List.filter_cons_of_pos (by simp [hnull]), Scalar.ofItems_cons, ih]

theorem Content.ofValue_withoutNulls (v : Value) :
    Content.ofValue (withoutNulls v) = Content.ofValue v := by
  cases v with
  | list entries => rw [withoutNulls, Content.ofValue, Content.ofValue, Scalar.ofItems_withoutNulls]
  | _ => rfl

theorem valueTokens_withoutNulls (v : Value) :
    valueTokens escaper (elementWithoutNulls v) = valueTokens escaper v := by
  cases v with
  | list entries =>
    rw [elementWithoutNulls, withoutNulls, valueTokens_list, valueTokens_list,
      Scalar.ofItems_withoutNulls]
    intro _ h
    cases h
  | map fields =>
    rw [elementWithoutNulls, valueTokens_map, valueTokens_map, collect_map]
    refine collect_congr fun field _ => ?_
    rw [fieldTokens, fieldTokens, Content.ofValue_withoutNulls]
  | _ => rfl

/-- The lists of an attribute list may be written without their nulls. -/
theorem writeValue_elementsWithoutNulls (values : List Value) :
    writeValue escaper (.list (values.map elementWithoutNulls)) =
      writeValue escaper (.list values) := by
  rw [writeValue_list, writeValue_list, collect_map]
  exact congrArg _ (collect_congr fun v _ => valueTokens_withoutNulls escaper v)

/-- An attribute list may be written without the elements that name nothing. -/
theorem writeValue_filter_namesAttribute (values : List Value) :
    writeValue escaper (.list (values.filter namesAttribute)) =
      writeValue escaper (.list values) := by
  rw [writeValue_list, writeValue_list]
  refine congrArg _ (collect_filter fun v _ hv => ?_)
  cases v with
  | null => rfl
  | bool b => rfl
  | _ => cases hv

/-- Outside of lists a scalar is a flag, unless it is null or a truth value. -/
theorem valueTokens_of_ofValue? {v : Value} {s : Scalar} (h : Scalar.ofValue? v = some s)
    (hnull : v.isNull = false) (hbool : v.kind ≠ .bool) :
    valueTokens escaper v = .ok [s.escaped escaper] := by
  cases v with
  | null => cases hnull
  | bool b => exact absurd rfl hbool
  | list entries => cases h
  | map fields => cases h
  | _ =>
    cases h
    rfl

/-- Without truth values among them, the entries of a list are as elements what they are in it. -/
theorem collect_of_ofItems {entries : List Value} (hbool : ∀ e ∈ entries, e.kind ≠ .bool) :
    ∀ {scalars : List Scalar}, Scalar.ofItems entries = .ok scalars →
      collect (valueTokens escaper) entries = .ok (scalars.map (·.escaped escaper)) := by
  induction entries with
  | nil =>
    intro scalars h
    cases h
    rfl
  | cons v rest ih =>
    intro scalars h
    obtain ⟨hv, hrest⟩ := List.forall_mem_cons.mp hbool
    rw [Scalar.ofItems_cons] at h
    split at h
    next hnull =>
      -- null gives nothing in either place
      cases v with
      | null =>
        rw [collect, ih hrest h]
        rfl
      | _ => cases hnull
    next hnull =>
      split at h
      next s hs =>
        obtain ⟨more, hmore, rfl⟩ := map_eq_ok h
        rw [collect, ih hrest hmore,
          valueTokens_of_ofValue? escaper hs (Bool.eq_false_iff.mpr hnull) hv]
        rfl
      next => cases h

/-- The entries of a list without truth values may be written in place of the list, if it is not
refused. -/
theorem writeValue_spliced {entries : List Value} (hbool : ∀ e ∈ entries, e.kind ≠ .bool)
    (haccepted : ∃ ts, valueTokens escaper (.list entries) = .ok ts) (before after : List Value) :
    writeValue escaper (.list (before ++ entries ++ after)) =
      writeValue escaper (.list (before ++ .list entries :: after)) := by
  rw [valueTokens_list, exists_map_eq_ok_iff] at haccepted
  obtain ⟨scalars, hscalars⟩ := haccepted
  have hsame : valueTokens escaper (.list entries) = collect (valueTokens escaper) entries := by
    rw [valueTokens_list, hscalars, collect_of_ofItems escaper hbool hscalars]
    rfl
  rw [writeValue_list, writeValue_list, collect_splice hsame]

end Text

/-- An attribute list is refused if and only if it is no list, or a list in it that has to be
flattened holds a list or a map. If it is not, its text stays the same without the nulls and truth
values among its elements, without the nulls in these lists, and with the entries of one of its
elements in place of that element, if this is a list without truth values. -/
theorem writeValue_flattens (v : Value) :
    ((∃ items, Item.ofListValue v = .ok items) ↔ ∃ values, v = .list values ∧
      ∀ entries, IsInner values entries → ∀ e ∈ entries, e.isCollection = false) ∧
    ∀ values items, v = .list values → Item.ofListValue v = .ok items → ∀ escaper,
      writeValue escaper (.list (values.filter namesAttribute)) = writeValue escaper v ∧
      writeValue escaper (.list (values.map elementWithoutNulls)) = writeValue escaper v ∧
      ∀ before entries after, values = before ++ .list entries :: after →
        (∀ e ∈ entries, e.kind ≠ .bool) →
          writeValue escaper (.list (before ++ entries ++ after)) = writeValue escaper v := by
  constructor
  · constructor
    · rintro ⟨items, h⟩
      cases v with
      | list values =>
        refine ⟨values, rfl, (forall_isInner_iff .html).mpr ?_⟩
        exact (ofListValue_ok_iff .html).mp ⟨items, h⟩
      | _ => cases h
    · rintro ⟨values, rfl, h⟩
      exact (ofListValue_ok_iff .html).mpr ((forall_isInner_iff .html).mp h)
  · rintro values items rfl h escaper
    refine ⟨writeValue_filter_namesAttribute escaper values,
      writeValue_elementsWithoutNulls escaper values, ?_⟩
    rintro before entries after rfl hbool
    have haccepted := (ofListValue_ok_iff escaper).mp ⟨items, h⟩
    exact writeValue_spliced escaper hbool (haccepted _ (by simp)) before after

/-- Elements of all kinds: nulls and truth values on both levels, a map with flags of any kind, an empty
list, and a list that is flattened in two ways. -/
theorem writeValue_flattens_mixed :
    ∃ before entries after items,
      Item.ofListValue (.list (before ++ .list entries :: after)) = .ok items ∧
      before.length = 4 ∧ entries.length = 3 ∧ after.length = 2 ∧
      (∀ e ∈ entries, e.kind ≠ .bool) ∧
      writeValue .html (.list (before ++ .list entries :: after)) =
        .ok "a true b 1 class=\"false x\" style=\"on\"" ∧
      writeValue .html (.list ((before ++ .list entries :: after).filter namesAttribute)) =
        writeValue .html (.list (before ++ .list entries :: after)) ∧
      writeValue .html (.list ((before ++ .list entries :: after).map elementWithoutNulls)) =
        writeValue .html (.list (before ++ .list entries :: after)) ∧
      writeValue .html (.list (before ++ entries ++ after)) =
        writeValue .html (.list (before ++ .list entries :: after)) := by
  let before : List Value := [.null, .text "a", .bool false, .list [.bool true, .null]]
  let entries : List Value := [.text "b", .null, .int 1]
  let after : List Value := [.list [], .map [("class", .list [.null, .bool false, .text "x"]),
    ("style", .map [("on", .list [.list []])])]]
  obtain ⟨items, hitems⟩ : ∃ items,
      Item.ofListValue (.list (before ++ .list entries :: after)) = .ok items := ⟨_, rfl⟩
  have hbool : ∀ e ∈ entries, e.kind ≠ .bool := by decide
  obtain ⟨hnames, hnulls, hspliced⟩ := (writeValue_flattens _).2 _ items rfl hitems .html
  exact ⟨before, entries, after, items, hitems, rfl, rfl, rfl, hbool, rfl, hnames, hnulls,
    hspliced before entries after rfl hbool⟩

end Attribute

end TagTemplate
