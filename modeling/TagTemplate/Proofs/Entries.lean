import TagTemplate.Entries

/-!
# The things in entries

Setting names puts nothing into entries but what is set, and looking a name up finds nothing that
is not there. So what holds of everything that is set holds of everything in the entries.

A list of settings gives entries with the names in the order in which each was set first
(`names_ofList`), each with the thing that it was set to last (`mem_ofList_iff`).
-/

namespace TagTemplate.Entries

variable {α : Type}

theorem mem_of_get? {name : String} {a : α} {entries : Entries α} (h : get? name entries = some a) :
    (name, a) ∈ entries := by
  induction entries with
  | nil => cases h
  | cons e rest ih =>
    obtain ⟨n, b⟩ := e
    rw [get?] at h
    split at h
    next hname =>
      cases h
      rw [hname]
      exact List.mem_cons_self ..
    next => exact List.mem_cons_of_mem _ (ih h)

/-- If no name stands twice, what is there is found. -/
theorem get?_of_mem {name : String} {a : α} {entries : Entries α}
    (hnodup : (names entries).Nodup) (h : (name, a) ∈ entries) : get? name entries = some a := by
  induction entries with
  | nil => cases h
  | cons e rest ih =>
    obtain ⟨n, b⟩ := e
    obtain ⟨hnew, hrest⟩ := List.nodup_cons.mp hnodup
    rw [get?]
    rcases List.mem_cons.mp h with heq | hmem
    · cases heq
      exact if_pos rfl
    · have hne : n ≠ name := by
        rintro rfl
        exact hnew (List.mem_map.mpr ⟨_, hmem, rfl⟩)
      rw [if_neg hne, ih hrest hmem]

theorem mem_of_mem_insert {name : String} {a : α} {entries : Entries α} {e : String × α}
    (h : e ∈ insert name a entries) : e = (name, a) ∨ e ∈ entries := by
  induction entries with
  | nil => exact Or.inl (List.mem_singleton.mp h)
  | cons head rest ih =>
    obtain ⟨n, b⟩ := head
    rw [insert] at h
    split at h
    · exact (List.mem_cons.mp h).imp_right (List.mem_cons_of_mem _)
    · rcases List.mem_cons.mp h with rfl | h
      · exact Or.inr (List.mem_cons_self ..)
      · exact (ih h).imp_right (List.mem_cons_of_mem _)

theorem mem_of_mem_insertAll {added : List (String × α)} :
    ∀ (entries : Entries α) {e : String × α}, e ∈ insertAll entries added →
      e ∈ entries ∨ e ∈ added := by
  induction added with
  | nil => exact fun _ _ h => Or.inl h
  | cons a rest ih =>
    intro entries e h
    rcases ih (insert a.1 a.2 entries) h with h | h
    · rcases mem_of_mem_insert h with rfl | h
      · exact Or.inr (List.mem_cons_self ..)
      · exact Or.inl h
    · exact Or.inr (List.mem_cons_of_mem _ h)

theorem mem_of_mem_ofList {added : List (String × α)} {e : String × α} (h : e ∈ ofList added) :
    e ∈ added :=
  (mem_of_mem_insertAll [] h).resolve_left List.not_mem_nil

/-! ## First places and last settings -/

theorem insertAll_append (entries : Entries α) (first second : List (String × α)) :
    insertAll entries (first ++ second) = insertAll (insertAll entries first) second :=
  List.foldl_append

/-- What is removed last may be removed from what is left. -/
theorem removeAll_concat (names others : List String) (name : String) :
    names.removeAll (others ++ [name]) =
      (names.removeAll others).filter fun other => !other == name := by
  rw [List.removeAll, List.removeAll, List.filter_filter]
  refine List.filter_congr fun other _ => ?_
  by_cases hother : other = name <;> simp [hother]

/-- Names that are there keep their places, and the others come after them. -/
theorem names_insertAll (entries : Entries α) (added : List (String × α)) :
    names (insertAll entries added) =
      names entries ++ ((names added).removeAll (names entries)).eraseDups := by
  induction added generalizing entries with
  | nil => exact (List.append_nil _).symm
  | cons setting rest ih =>
    obtain ⟨name, a⟩ := setting
    show names (insertAll (insert name a entries) rest) =
      names entries ++ ((name :: names rest).removeAll (names entries)).eraseDups
    rw [ih, names_insert]
    by_cases hmem : name ∈ names entries
    · have hskip : (name :: names rest).removeAll (names entries) =
          (names rest).removeAll (names entries) := by
        simp [List.removeAll, hmem]
      rw [if_pos hmem, hskip]
    · have htake : (name :: names rest).removeAll (names entries) =
          name :: (names rest).removeAll (names entries) := by
        simp [List.removeAll, hmem]
      rw [if_neg hmem, htake, removeAll_concat, List.eraseDups_cons, List.append_assoc]
      rfl

/-- The names of settings stand in the order in which each was set first. -/
theorem names_ofList (added : List (String × α)) :
    names (ofList added) = (names added).eraseDups := by
  rw [ofList, names_insertAll]
  show ((names added).removeAll []).eraseDups = _
  rw [List.removeAll_nil]

theorem nodup_names_insertAll (added : List (String × α)) :
    ∀ {entries : Entries α}, (names entries).Nodup → (names (insertAll entries added)).Nodup := by
  induction added with
  | nil => exact id
  | cons setting rest ih =>
    intro entries h
    exact ih (nodup_names_insert setting.1 setting.2 h)

theorem nodup_names_ofList (added : List (String × α)) : (names (ofList added)).Nodup :=
  nodup_names_insertAll added List.nodup_nil

theorem get?_insertAll_of_notMem {name : String} {added : List (String × α)}
    (h : name ∉ names added) (entries : Entries α) :
    get? name (insertAll entries added) = get? name entries := by
  induction added generalizing entries with
  | nil => rfl
  | cons setting rest ih =>
    obtain ⟨hne, hrest⟩ := not_or.mp (mt List.mem_cons.mpr h)
    show get? name (insertAll (insert setting.1 setting.2 entries) rest) = _
    rw [ih hrest, get?_insert_of_ne _ _ hne]

/-- A name that is not set again keeps the thing that it was set to. -/
theorem get?_ofList_append {name : String} {after : List (String × α)} (h : name ∉ names after)
    (before : List (String × α)) (a : α) :
    get? name (ofList (before ++ (name, a) :: after)) = some a := by
  rw [ofList, insertAll_append]
  show get? name (insertAll (insert name a _) after) = _
  rw [get?_insertAll_of_notMem h, get?_insert_self]

theorem exists_last_setting {name : String} {added : List (String × α)} (h : name ∈ names added) :
    ∃ before a after, added = before ++ (name, a) :: after ∧ name ∉ names after := by
  induction added with
  | nil => cases h
  | cons setting rest ih =>
    by_cases hrest : name ∈ names rest
    · obtain ⟨before, a, after, rfl, hafter⟩ := ih hrest
      exact ⟨setting :: before, a, after, rfl, hafter⟩
    · have hname : name = setting.1 := (List.mem_cons.mp h).resolve_right hrest
      subst hname
      exact ⟨[], setting.2, rest, rfl, hrest⟩

/-- A name has the thing that it was set to last. -/
theorem mem_ofList_iff {name : String} {a : α} {added : List (String × α)} :
    (name, a) ∈ ofList added ↔
      ∃ before after, added = before ++ (name, a) :: after ∧ name ∉ names after := by
  constructor
  · intro h
    have hmem : name ∈ names added := List.mem_map.mpr ⟨_, mem_of_mem_ofList h, rfl⟩
    obtain ⟨before, last, after, rfl, hafter⟩ := exists_last_setting hmem
    have hfound := get?_of_mem (nodup_names_ofList _) h
    rw [get?_ofList_append hafter] at hfound
    cases hfound
    exact ⟨before, after, rfl, hafter⟩
  · rintro ⟨before, after, rfl, hafter⟩
    exact mem_of_get? (get?_ofList_append hafter before a)

end TagTemplate.Entries
