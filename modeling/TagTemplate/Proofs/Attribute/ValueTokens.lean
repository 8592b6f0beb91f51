import TagTemplate.Attribute.Text
import TagTemplate.Proofs.Success

/-!
# The tokens of values

Sorting values into items and writing the items are two passes over an attribute list, and both look
at one value after another. So the text of a list is put together from what each of its values gives
on its own (`writeValue_list`), and the tokens of a map from what each of its fields gives
(`valueTokens_map`). On both levels it is `collect` that goes through the parts and stops at the first
refusal.

> `collect_replace`: a part may be replaced by one that gives the same.
> `collect_splice`: or by several that together give the same.
> `collect_filter`: a part that gives nothing may be left out.
> `collect_ok_iff`: nothing is refused if no part is.

Whoever changes a list of values and wants its text back has to look at the changed values only.
-/

namespace TagTemplate.Attribute

/-! ## One part after another -/

section Collect

variable {α β : Type}

/-- What several parts give, one part after another; the first refusal wins. -/
def collect (f : α → Except ArgumentError (List String)) : List α → Except ArgumentError (List String)
  | [] => .ok []
  | a :: rest => do
    let ts ← f a
    let more ← collect f rest
    .ok (ts ++ more)

variable {f g : α → Except ArgumentError (List String)} {as : List α}

theorem collect_append (f : α → Except ArgumentError (List String)) (as bs : List α) :
    collect f (as ++ bs) = (do
      let ts ← collect f as
      let more ← collect f bs
      .ok (ts ++ more)) := by
  induction as with
  | nil => cases h : collect f bs <;> exact h
  | cons a rest ih =>
    rw [List.cons_append, collect, collect, ih]
    cases f a with
    | error e => rfl
    | ok ts =>
      cases collect f rest with
      | error e => rfl
      | ok us =>
        cases collect f bs with
        | error e => rfl
        | ok vs => exact congrArg Except.ok (List.append_assoc ts us vs).symm

theorem collect_congr (h : ∀ a ∈ as, f a = g a) : collect f as = collect g as := by
  induction as with
  | nil => rfl
  | cons a rest ih =>
    obtain ⟨ha, hrest⟩ := List.forall_mem_cons.mp h
    rw [collect, collect, ha, ih hrest]

theorem collect_map (f : β → Except ArgumentError (List String)) (g : α → β) (as : List α) :
    collect f (as.map g) = collect (fun a => f (g a)) as := by
  induction as with
  | nil => rfl
  | cons a rest ih => rw [List.map_cons, collect, collect, ih]

/-- A part may be replaced by one that gives the same. -/
theorem collect_replace {a b : α} (h : f a = f b) (before after : List α) :
    collect f (before ++ a :: after) = collect f (before ++ b :: after) := by
  rw [collect_append, collect_append, collect, collect, h]

/-- A part may be replaced by several that together give the same. -/
theorem collect_splice {a : α} {bs : List α} (h : f a = collect f bs) (before after : List α) :
    collect f (before ++ a :: after) = collect f (before ++ bs ++ after) := by
  rw [collect_append, collect_append, collect_append, collect, h]
  cases collect f before with
  | error e => rfl
  | ok ts =>
    cases collect f bs with
    | error e => rfl
    | ok us =>
      cases collect f after with
      | error e => rfl
      | ok vs => exact congrArg Except.ok (List.append_assoc ts us vs).symm

/-- Nothing is refused if and only if no part is. -/
theorem collect_ok_iff : (∃ ts, collect f as = .ok ts) ↔ ∀ a ∈ as, ∃ ts, f a = .ok ts := by
  induction as with
  | nil => exact ⟨fun _ a ha => absurd ha List.not_mem_nil, fun _ => ⟨[], rfl⟩⟩
  | cons a rest ih =>
    rw [List.forall_mem_cons, ← ih, collect]
    constructor
    · rintro ⟨ts, h⟩
      obtain ⟨us, ha, hmore⟩ := bind_eq_ok h
      obtain ⟨vs, hrest, -⟩ := bind_eq_ok hmore
      exact ⟨⟨us, ha⟩, ⟨vs, hrest⟩⟩
    · rintro ⟨⟨us, ha⟩, ⟨vs, hrest⟩⟩
      rw [ha, hrest]
      exact ⟨us ++ vs, rfl⟩

/-- Parts that give nothing may be left out. -/
theorem collect_filter {keep : α → Bool} (h : ∀ a ∈ as, keep a = false → f a = .ok []) :
    collect f (as.filter keep) = collect f as := by
  induction as with
  | nil => rfl
  | cons a rest ih =>
    obtain ⟨ha, hrest⟩ := List.forall_mem_cons.mp h
    by_cases hkeep : keep a = true
    · rw [List.filter_cons_of_pos hkeep, collect, collect, ih hrest]
    · rw [List.filter_cons_of_neg hkeep, ih hrest, collect, ha (Bool.eq_false_iff.mpr hkeep)]
      cases collect f rest <;> rfl

end Collect

/-! ## Values and fields -/

/-- The tokens that a value gives in an attribute list; null and the truth values give none. -/
def valueTokens (escaper : Escaper) (v : Value) : Except ArgumentError (List String) :=
  (Item.ofValue v).map fun item => (item.map (Item.tokens escaper)).getD []

/-- The token that a field gives in a map, unless it bears the reserved name. -/
def fieldTokens (escaper : Escaper) (field : String × Value) : Except ArgumentError (List String) :=
  (Content.ofValue field.2).map fun content =>
    if field.1 = reservedName then [] else [writePair escaper field.1 content]

/-- The text that tokens make: each of them once, and no empty one. -/
def textOfTokens (ts : List String) : String :=
  " ".intercalate (ts.filter fun t => !t.isEmpty).eraseDups

section Values

variable (escaper : Escaper)

theorem collect_valueTokens (values : List Value) :
    collect (valueTokens escaper) values =
      (Item.ofValues values).map fun items => items.flatMap (Item.tokens escaper) := by
  induction values with
  | nil => rfl
  | cons v rest ih =>
    rw [collect, ih, valueTokens, Item.ofValues]
    cases Item.ofValue v with
    | error e => rfl
    | ok found =>
      cases found with
      | none => cases Item.ofValues rest <;> rfl
      | some item => cases Item.ofValues rest <;> rfl

/-- The text of a list is made of what its values give. -/
theorem writeValue_list (values : List Value) :
    writeValue escaper (.list values) =
      (collect (valueTokens escaper) values).map textOfTokens := by
  rw [collect_valueTokens, writeValue, Item.ofListValue]
  cases Item.ofValues values <;> rfl

/-- The tokens of a map are what its fields give. -/
theorem valueTokens_map (fields : List (String × Value)) :
    valueTokens escaper (.map fields) = collect (fieldTokens escaper) fields := by
  have hcontents : collect (fieldTokens escaper) fields =
      (Item.contents fields).map fun contents => Item.tokens escaper (.map contents) := by
    induction fields with
    | nil => rfl
    | cons field rest ih =>
      obtain ⟨name, v⟩ := field
      rw [collect, ih, fieldTokens, Item.contents]
      cases Content.ofValue v with
      | error e => rfl
      | ok content =>
        cases Item.contents rest with
        | error e => rfl
        | ok contents =>
          by_cases hname : name = reservedName <;>
            simp [Except.map, Item.tokens, hname, bind, Except.bind]
  rw [hcontents, valueTokens, Item.ofValue]
  cases Item.contents fields <;> rfl

/-- The tokens of a list are its scalars. -/
theorem valueTokens_list (entries : List Value) :
    valueTokens escaper (.list entries) =
      (Scalar.ofItems entries).map fun scalars => scalars.map (·.escaped escaper) := by
  rw [valueTokens, Item.ofValue]
  cases Scalar.ofItems entries <;> rfl

end Values

end TagTemplate.Attribute
