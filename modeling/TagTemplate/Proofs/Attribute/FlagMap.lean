import Mathlib.Data.List.Nodup
import TagTemplate.Proofs.Attribute.ReadBack
import TagTemplate.Proofs.Attribute.ValueTokens

/-!
# A map of flags is the list of its names

The value of an attribute can name its parts in two ways, by a list and by a map that says of each
part whether it is on. Which flags are on is settled when the map is sorted, the reserved name is left
out when it is written, and a list is written without repetitions while a map is not. The names in a
map are distinct, and escaping keeps them so; hence nothing is repeated in either of them.

> `writeValue_flagNames`: in the map of any element of an attribute list, the list of the names that
> are on may stand in place of a map of flags.
-/

namespace TagTemplate.Attribute

/-- The names of the flags that are on, without the reserved one. -/
def namesOn (flags : List (String × Value)) : List String :=
  (flags.filter fun (name, v) => v.isTruthy && name != reservedName).map Prod.fst

/-- The list that a map of flags stands for. -/
def flagNames (flags : List (String × Value)) : Value :=
  .list ((namesOn flags).map .text)

/-- Where nothing is repeated, nothing is erased. -/
theorem eraseDups_of_nodup {l : List String} (h : l.Nodup) : l.eraseDups = l := by
  induction l with
  | nil => rfl
  | cons s rest ih =>
    obtain ⟨hnew, hrest⟩ := List.nodup_cons.mp h
    have hkept : (rest.filter fun t => !t == s) = rest := by
      refine List.filter_eq_self.mpr fun t ht => ?_
      have hne : t ≠ s := by
        rintro rfl
        exact hnew ht
      simp [hne]
    rw [List.eraseDups_cons, hkept, ih hrest]

variable {flags : List (String × Value)}

theorem nodup_namesOn (h : (Entries.names flags).Nodup) : (namesOn flags).Nodup :=
  h.sublist (List.filter_sublist.map Prod.fst)

theorem ofItems_text (names : List String) :
    Scalar.ofItems (names.map .text) = .ok (names.map .text) := by
  induction names with
  | nil => rfl
  | cons name rest ih =>
    rw [List.map_cons, Scalar.ofItems, Scalar.ofValue?, ih]
    · rfl
    · exact fun h => by cases h

/-- What a map of flags gives as the value of an attribute. -/
theorem write_flags (escaper : Escaper) (flags : List (String × Value)) :
    (Content.flags (flags.map fun (name, v) => (name, v.isTruthy))).write escaper =
      " ".intercalate ((namesOn flags).map escaper.escape) := by
  rw [Content.write, namesOn, List.filter_map, List.map_map, List.map_map]
  rfl

/-- What a list of texts gives as the value of an attribute. -/
theorem write_texts (escaper : Escaper) (names : List String) :
    (Content.list (names.map .text)).write escaper =
      " ".intercalate (names.map escaper.escape).eraseDups := by
  rw [Content.write, List.map_map]
  rfl

theorem fieldTokens_flagNames (h : (Entries.names flags).Nodup) (name : String) :
    fieldTokens .html (name, flagNames flags) = fieldTokens .html (name, .map flags) := by
  -- distinct names are escaped to distinct texts
  have hnodup : ((namesOn flags).map Html.escape).Nodup :=
    (nodup_namesOn h).map fun _ _ heq => Html.escape_injective heq
  have hwrite : (Content.list ((namesOn flags).map .text)).write .html =
      (Content.flags (flags.map fun (name, v) => (name, v.isTruthy))).write .html := by
    rw [write_texts, write_flags]
    exact congrArg (" ".intercalate ·) (eraseDups_of_nodup hnodup)
  have hpair : writePair .html name (.list ((namesOn flags).map .text)) =
      writePair .html name (.flags (flags.map fun (name, v) => (name, v.isTruthy))) := by
    rw [writePair, writePair, hwrite]
  have hlist : Content.ofValue (flagNames flags) = .ok (.list ((namesOn flags).map .text)) := by
    rw [flagNames, Content.ofValue, ofItems_text]
    rfl
  rw [fieldTokens, fieldTokens, hlist, Content.ofValue]
  exact congrArg (fun pair => Except.ok (if name = reservedName then [] else [pair])) hpair

/-- A map of flags and the list of its names that are on are the same attribute: the text stays the
same, and so does the refusal if another part of the list is refused. -/
theorem writeValue_flagNames (h : (Entries.names flags).Nodup) (before after : List Value)
    (front back : List (String × Value)) (name : String) :
    writeValue .html
        (.list (before ++ .map (front ++ (name, flagNames flags) :: back) :: after)) =
      writeValue .html (.list (before ++ .map (front ++ (name, .map flags) :: back) :: after)) := by
  have hmap : valueTokens .html (.map (front ++ (name, flagNames flags) :: back)) =
      valueTokens .html (.map (front ++ (name, .map flags) :: back)) := by
    rw [valueTokens_map, valueTokens_map, collect_replace (fieldTokens_flagNames h name)]
  rw [writeValue_list, writeValue_list, collect_replace hmap]

/-- Flags of many kinds, among them the reserved name, an empty name, and names to be escaped. -/
theorem writeValue_flagNames_mixed :
    ∃ flags : List (String × Value), (Entries.names flags).Nodup ∧
      namesOn flags = ["a&b", "", "<i>"] ∧
      writeValue .html (.list [.text "on", .map [("id", .null), ("class", flagNames flags)]]) =
        writeValue .html (.list [.text "on", .map [("id", .null), ("class", .map flags)]]) ∧
      writeValue .html (.list [.text "on", .map [("id", .null), ("class", .map flags)]]) =
        .ok "on id=\"\" class=\"a&amp;b  &lt;i&gt;\"" := by
  let flags : List (String × Value) :=
    [("a&b", .int (-1)), ("off", .null), ("", .list []), ("__keywords", .bool true),
      ("none", .text ""), ("<i>", .map [("off", .bool false)]), ("zero", .int 0)]
  have hnodup : (Entries.names flags).Nodup := by decide
  exact ⟨flags, hnodup, rfl,
    writeValue_flagNames hnodup [.text "on"] [] [("id", .null)] [] "class", rfl⟩

end TagTemplate.Attribute
