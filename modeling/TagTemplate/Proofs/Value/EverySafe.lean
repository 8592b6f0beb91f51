import TagTemplate.Expression.Evaluate
import TagTemplate.Proofs.Entries

/-!
# What holds of all safe text in a value

Safe text is written into markup as it is, so what a template can let through depends on the safe
text in its values, at any depth. `EverySafe p v` says that all of it satisfies `p`. The lemmas
here follow safe text through what can be done to a value without a filter: a part of a value has
no safe text that the value does not have, and a list or map has that of its parts.

With `p` false everywhere the value holds no safe text at all (`NoSafe`).
-/

namespace TagTemplate.Value

mutual

/-- All safe text in a value satisfies `p`. -/
def EverySafe (p : SafeText → Prop) : Value → Prop
  | safe s => p s
  | list items => EverySafeItem p items
  | map entries => EverySafeEntry p entries
  | null => True
  | bool _ => True
  | int _ => True
  | float _ => True
  | text _ => True

/-- All safe text in the items of a list satisfies `p`. -/
def EverySafeItem (p : SafeText → Prop) : List Value → Prop
  | [] => True
  | v :: rest => v.EverySafe p ∧ EverySafeItem p rest

/-- All safe text in the entries of a map satisfies `p`. -/
def EverySafeEntry (p : SafeText → Prop) : List (String × Value) → Prop
  | [] => True
  | (_, v) :: rest => v.EverySafe p ∧ EverySafeEntry p rest

end

variable {p : SafeText → Prop}

theorem everySafeItem_iff {items : List Value} :
    EverySafeItem p items ↔ ∀ v ∈ items, v.EverySafe p := by
  induction items with
  | nil => simp [EverySafeItem]
  | cons v rest ih => simp [EverySafeItem, ih]

theorem everySafeEntry_iff {entries : List (String × Value)} :
    EverySafeEntry p entries ↔ ∀ e ∈ entries, e.2.EverySafe p := by
  induction entries with
  | nil => simp [EverySafeEntry]
  | cons e rest ih => simp [EverySafeEntry, ih]

@[simp] theorem everySafe_list {items : List Value} :
    (list items).EverySafe p ↔ ∀ v ∈ items, v.EverySafe p := by
  rw [EverySafe, everySafeItem_iff]

@[simp] theorem everySafe_map {entries : List (String × Value)} :
    (map entries).EverySafe p ↔ ∀ e ∈ entries, e.2.EverySafe p := by
  rw [EverySafe, everySafeEntry_iff]

@[simp] theorem everySafe_null : null.EverySafe p := trivial

@[simp] theorem everySafe_bool (b : Bool) : (bool b).EverySafe p := trivial

@[simp] theorem everySafe_int (n : Int64) : (int n).EverySafe p := trivial

@[simp] theorem everySafe_float (x : Float) : (float x).EverySafe p := trivial

@[simp] theorem everySafe_text (s : String) : (text s).EverySafe p := trivial

@[simp] theorem everySafe_safe (s : SafeText) : (safe s).EverySafe p ↔ p s := Iff.rfl

/-- The value holds no safe text at any depth. -/
def NoSafe (v : Value) : Prop :=
  v.EverySafe fun _ => False

mutual

theorem EverySafe.mono {q : SafeText → Prop} (hpq : ∀ s, p s → q s) :
    ∀ {v : Value}, v.EverySafe p → v.EverySafe q
  | safe s, h => hpq s h
  | list _, h => EverySafeItem.mono hpq h
  | map _, h => EverySafeEntry.mono hpq h
  | null, _ => trivial
  | bool _, _ => trivial
  | int _, _ => trivial
  | float _, _ => trivial
  | text _, _ => trivial

theorem EverySafeItem.mono {q : SafeText → Prop} (hpq : ∀ s, p s → q s) :
    ∀ {items : List Value}, EverySafeItem p items → EverySafeItem q items
  | [], _ => trivial
  | _ :: _, h => ⟨EverySafe.mono hpq h.1, EverySafeItem.mono hpq h.2⟩

theorem EverySafeEntry.mono {q : SafeText → Prop} (hpq : ∀ s, p s → q s) :
    ∀ {entries : List (String × Value)}, EverySafeEntry p entries → EverySafeEntry q entries
  | [], _ => trivial
  | (_, _) :: _, h => ⟨EverySafe.mono hpq h.1, EverySafeEntry.mono hpq h.2⟩

end

/-- Of the safe text in a value that holds none, anything is true. -/
theorem NoSafe.everySafe {v : Value} (h : v.NoSafe) : v.EverySafe p :=
  EverySafe.mono (fun _ => False.elim) h

/-! ## Parts and wholes -/

theorem EverySafe.get? {v w : Value} {key : String} (hv : v.EverySafe p)
    (h : v.get? key = some w) : w.EverySafe p := by
  cases v with
  | map entries => exact everySafe_map.mp hv _ (Entries.mem_of_get? h)
  | list items =>
    obtain ⟨i, -, hi⟩ := Option.bind_eq_some_iff.mp h
    exact everySafe_list.mp hv w (List.mem_of_getElem? hi)
  | _ => cases h

theorem everySafe_ofEntries {entries : List (String × Value)}
    (h : ∀ e ∈ entries, e.2.EverySafe p) : (ofEntries entries).EverySafe p := by
  refine everySafe_map.mpr fun e he => ?_
  exact h e (Entries.mem_of_mem_ofList he)

/-- A sum holds no safe text: it is a number or plain text. -/
theorem everySafe_add (v w : Value) : (v.add w).EverySafe p := by
  unfold add
  split
  · dsimp only
    split <;> trivial
  all_goals trivial

end TagTemplate.Value
