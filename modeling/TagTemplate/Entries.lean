/-!
# Entries

Named things in the order in which their names first came up. A name that is set again keeps its
place and takes the new thing, so no name ever stands twice in what `insert` and `ofList` build.
-/

namespace TagTemplate

/-- A list of named things. -/
abbrev Entries (α : Type) := List (String × α)

namespace Entries

variable {α : Type}

/-- Sets a name: in its place if it is there, otherwise at the end. -/
def insert (name : String) (a : α) : Entries α → Entries α
  | [] => [(name, a)]
  | (n, b) :: rest => if n = name then (name, a) :: rest else (n, b) :: insert name a rest

/-- Sets the names of a list one after another, starting from `entries`. -/
def insertAll (entries : Entries α) (added : List (String × α)) : Entries α :=
  added.foldl (fun es (name, a) => insert name a es) entries

/-- The entries that a list of settings gives. -/
def ofList (added : List (String × α)) : Entries α :=
  insertAll [] added

/-- The thing that bears a name. -/
def get? (name : String) : Entries α → Option α
  | [] => none
  | (n, a) :: rest => if n = name then some a else get? name rest

/-- The names, in order. -/
def names (entries : Entries α) : List String :=
  entries.map Prod.fst

theorem get?_insert_self (name : String) (a : α) (es : Entries α) :
    get? name (insert name a es) = some a := by
  induction es with
  | nil => simp [insert, get?]
  | cons e rest ih =>
    obtain ⟨n, b⟩ := e
    by_cases h : n = name <;> simp [insert, get?, h, ih]

theorem get?_insert_of_ne {name other : String} (a : α) (es : Entries α) (h : other ≠ name) :
    get? other (insert name a es) = get? other es := by
  induction es with
  | nil => simp [insert, get?, Ne.symm h]
  | cons e rest ih =>
    obtain ⟨n, b⟩ := e
    by_cases hn : n = name
    · subst hn; simp [insert, get?, Ne.symm h]
    · simp [insert, get?, hn, ih]

/-- Setting a name keeps the order of the names that were there. -/
theorem names_insert (name : String) (a : α) (es : Entries α) :
    names (insert name a es) = if name ∈ names es then names es else names es ++ [name] := by
  induction es with
  | nil => simp [insert, names]
  | cons e rest ih =>
    obtain ⟨n, b⟩ := e
    by_cases h : n = name
    · simp [insert, names, h]
    · simp only [names] at ih
      by_cases hm : name ∈ rest.map Prod.fst <;> simp [insert, names, h, Ne.symm h, ih, hm]

/-- No name is set twice. -/
theorem nodup_names_insert (name : String) (a : α) {es : Entries α} (h : (names es).Nodup) :
    (names (insert name a es)).Nodup := by
  rw [names_insert]
  split
  · exact h
  · rename_i hm
    rw [List.nodup_append]
    exact ⟨h, by simp, by intro x hx y hy hxy; simp at hy; subst hy; subst hxy; exact hm hx⟩

end Entries

end TagTemplate
