import TagTemplate.Attribute.Text
import TagTemplate.Proofs.Entries

/-!
# Tokens in the order of their first appearance

The tokens of an attribute list are a set that keeps the order in which its members came in. A token
that is empty or is there already changes nothing, every other one goes to the end (`push`). So a
list of texts adds to a set the ones that are new, each where it comes up first (`foldl_push`), and
what is written of a list is never changed by the items behind it:

> `write_append`: further items put those of their tokens that are new behind the text, each after a
> single space, and nothing else.

Nothing is asked of the escaper. Two different texts may be escaped to the same token, which then is
one token.
-/

namespace TagTemplate.Attribute

variable {set ts : List String} {s t : String}

/-! ## Insertion -/

/-- Puts a token into a set, at the end, unless it is empty or there already. -/
def push (set : List String) (t : String) : List String :=
  if t.isEmpty || set.contains t then set else set ++ [t]

/-- The texts that are new to a set and not empty, in the order in which they come up first. -/
def fresh (set ts : List String) : List String :=
  ((ts.filter fun t => !t.isEmpty).removeAll set).eraseDups

/-- One step of looking for new texts. What is new once is known from there on. -/
theorem fresh_cons (set : List String) (t : String) (ts : List String) :
    fresh set (t :: ts) =
      if t.isEmpty || set.contains t then fresh set ts else t :: fresh (push set t) ts := by
  unfold fresh
  by_cases hempty : t.isEmpty = true
  · simp [hempty]
  · by_cases hmem : t ∈ set
    · simp [hempty, hmem, List.removeAll]
    · have hpush : push set t = set ++ [t] := by simp [push, hempty, hmem]
      rw [hpush, Entries.removeAll_concat]
      simp [hempty, hmem, List.removeAll, List.eraseDups_cons]

/-- A whole run of insertions: the new texts stand behind those that were there. -/
theorem foldl_push (set ts : List String) : ts.foldl push set = set ++ fresh set ts := by
  induction ts generalizing set with
  | nil => exact (List.append_nil set).symm
  | cons t ts ih =>
    rw [List.foldl_cons, ih, fresh_cons]
    split
    next hknown => rw [push, if_pos hknown]
    next hnew =>
      rw [push, if_neg hnew]
      exact List.append_assoc ..

theorem mem_fresh_iff : t ∈ fresh set ts ↔ t ∈ ts ∧ t ≠ "" ∧ t ∉ set := by
  rw [fresh, List.mem_eraseDups, List.removeAll, List.mem_filter, List.mem_filter]
  simp [and_assoc]

/-- What comes up first is inserted first. -/
theorem pairwise_fresh (set ts : List String) :
    (fresh set ts).Pairwise fun s t => ts.idxOf s < ts.idxOf t := by
  induction ts generalizing set with
  | nil => exact .nil
  | cons t ts ih =>
    -- the places of all texts but the first move by one
    have hnext : ∀ {set' : List String}, t ∉ fresh set' ts →
        (fresh set' ts).Pairwise fun a b => (t :: ts).idxOf a < (t :: ts).idxOf b := by
      intro set' hnot
      refine (ih set').imp_of_mem fun {a b} ha hb hlt => ?_
      have hat : (t == a) = false := beq_eq_false_iff_ne.mpr fun h => hnot (h ▸ ha)
      have hbt : (t == b) = false := beq_eq_false_iff_ne.mpr fun h => hnot (h ▸ hb)
      rw [List.idxOf_cons, List.idxOf_cons, hat, hbt]
      exact Nat.succ_lt_succ hlt
    rw [fresh_cons]
    split
    next hknown =>
      refine hnext fun hmem => ?_
      obtain ⟨-, hne, hnot⟩ := mem_fresh_iff.mp hmem
      simp [hne, hnot] at hknown
    next hnew =>
      have hmem : t ∈ push set t := by
        rw [push, if_neg hnew]
        simp
      have hnot : t ∉ fresh (push set t) ts := fun h => (mem_fresh_iff.mp h).2.2 hmem
      refine .cons (fun a ha => ?_) (hnext hnot)
      have hta : (t == a) = false := beq_eq_false_iff_ne.mpr fun h => hnot (h ▸ ha)
      rw [List.idxOf_cons_self, List.idxOf_cons, hta]
      exact Nat.succ_pos _

/-! ## Tokens -/

section Tokens

variable (escaper : Escaper)

/-- The tokens of an attribute list are inserted one by one, item by item. -/
theorem tokens_eq_foldl (items : List Item) :
    tokens escaper items = (items.flatMap (Item.tokens escaper)).foldl push [] := by
  rw [foldl_push, fresh, List.removeAll_nil]
  rfl

theorem tokens_append (xs ys : List Item) :
    tokens escaper (xs ++ ys) =
      tokens escaper xs ++ fresh (tokens escaper xs) (ys.flatMap (Item.tokens escaper)) := by
  rw [tokens_eq_foldl, List.flatMap_append, List.foldl_append, ← tokens_eq_foldl, foldl_push]

theorem mem_tokens_iff {items : List Item} :
    t ∈ tokens escaper items ↔ t ≠ "" ∧ ∃ item ∈ items, t ∈ item.tokens escaper := by
  rw [tokens_eq_foldl, foldl_push, List.nil_append, mem_fresh_iff, List.mem_flatMap]
  simp [and_comm]

end Tokens

/-! ## The text -/

/-- Puts a token behind the text of an attribute list. -/
def addToken (text t : String) : String :=
  if text.isEmpty then t else text ++ " " ++ t

theorem intercalate_ne_empty (hne : ts ≠ []) (h : ∀ t ∈ ts, t ≠ "") : " ".intercalate ts ≠ "" := by
  cases ts with
  | nil => exact absurd rfl hne
  | cons t rest =>
    have ht := h t (List.mem_cons_self ..)
    cases rest with
    | nil => simpa using ht
    | cons s rest =>
      rw [String.intercalate_cons_cons]
      simp [ht]

/-- Texts are joined one after another. -/
theorem intercalate_append_eq_foldl (hts : ∀ t ∈ ts, t ≠ "") {new : List String}
    (hnew : ∀ t ∈ new, t ≠ "") :
    " ".intercalate (ts ++ new) = new.foldl addToken (" ".intercalate ts) := by
  induction new generalizing ts with
  | nil => rw [List.append_nil, List.foldl_nil]
  | cons t new ih =>
    obtain ⟨ht, hrest⟩ := List.forall_mem_cons.mp hnew
    have hone : " ".intercalate (ts ++ [t]) = addToken (" ".intercalate ts) t := by
      by_cases hnil : ts = []
      · subst hnil
        simp [addToken]
      · have hsome := intercalate_ne_empty hnil hts
        rw [String.intercalate_append_of_ne_nil hnil (List.cons_ne_nil t []), addToken,
          if_neg (by simpa using hsome), String.intercalate_singleton]
    have hall : ∀ s ∈ ts ++ [t], s ≠ "" := by
      intro s hs
      rcases List.mem_append.mp hs with hs | hs
      · exact hts s hs
      · exact List.mem_singleton.mp hs ▸ ht
    rw [List.foldl_cons, ← hone, ← ih hall hrest, List.append_assoc, List.singleton_append]

theorem exists_foldl_addToken (text : String) (new : List String) :
    ∃ more, new.foldl addToken text = text ++ more := by
  induction new generalizing text with
  | nil => exact ⟨"", String.append_empty.symm⟩
  | cons t new ih =>
    obtain ⟨more, hmore⟩ := ih (addToken text t)
    rw [List.foldl_cons, hmore, addToken]
    split
    next hempty =>
      rw [String.isEmpty_iff.mp hempty]
      exact ⟨t ++ more, String.empty_append.symm⟩
    next => exact ⟨" " ++ t ++ more, by simp only [String.append_assoc]⟩

/-- Further items put their new tokens behind the text, in the order in which these come up first:
the ones that are not empty and that no earlier item has. If all items are there already, the text
stays as it is. -/
theorem write_append (escaper : Escaper) (xs ys : List Item) :
    ∃ new : List String,
      (∀ t, t ∈ new ↔
        t ≠ "" ∧ (∃ y ∈ ys, t ∈ y.tokens escaper) ∧ ∀ x ∈ xs, t ∉ x.tokens escaper) ∧
      (new.Pairwise fun s t =>
        (ys.flatMap (Item.tokens escaper)).idxOf s < (ys.flatMap (Item.tokens escaper)).idxOf t) ∧
      write escaper (xs ++ ys) = new.foldl addToken (write escaper xs) ∧
      (∃ more, write escaper (xs ++ ys) = write escaper xs ++ more) ∧
      ((∀ y ∈ ys, y ∈ xs) → write escaper (xs ++ ys) = write escaper xs) := by
  have hmem : ∀ t, t ∈ fresh (tokens escaper xs) (ys.flatMap (Item.tokens escaper)) ↔
      t ≠ "" ∧ (∃ y ∈ ys, t ∈ y.tokens escaper) ∧ ∀ x ∈ xs, t ∉ x.tokens escaper := by
    intro t
    rw [mem_fresh_iff, List.mem_flatMap, mem_tokens_iff]
    constructor
    · intro ⟨hys, hne, hnot⟩
      exact ⟨hne, hys, fun x hx ht => hnot ⟨hne, x, hx, ht⟩⟩
    · intro ⟨hne, hys, hnot⟩
      exact ⟨hys, hne, fun ⟨_, x, hx, ht⟩ => hnot x hx ht⟩
  have hwrite : write escaper (xs ++ ys) =
      (fresh (tokens escaper xs) (ys.flatMap (Item.tokens escaper))).foldl addToken
        (write escaper xs) := by
    rw [write, tokens_append]
    exact intercalate_append_eq_foldl (fun t ht => ((mem_tokens_iff escaper).mp ht).1)
      fun t ht => ((hmem t).mp ht).1
  refine ⟨_, hmem, pairwise_fresh _ _, hwrite, ?_, fun hsub => ?_⟩
  · rw [hwrite]
    exact exists_foldl_addToken _ _
  · -- nothing is new then
    have hnone : fresh (tokens escaper xs) (ys.flatMap (Item.tokens escaper)) = [] := by
      refine List.eq_nil_iff_forall_not_mem.mpr fun t ht => ?_
      obtain ⟨-, ⟨y, hy, hty⟩, hnot⟩ := (hmem t).mp ht
      exact hnot y (hsub y hy) hty
    rw [hwrite, hnone]
    rfl

/-- Items that are there already: a flag list with an empty flag and a map with the reserved name. -/
theorem write_append_repeated :
    ∃ xs ys : List Item, xs.length = 3 ∧ ys.length = 2 ∧ (∀ y ∈ ys, y ∈ xs) ∧
      write .html (xs ++ ys) = "a&amp;b id=\"x\" on" := by
  let flags : Item := .flags [.text "on", .text "", .safe ⟨"a&amp;b"⟩]
  let pairs : Item := .map [("id", .scalar (.text "x")), ("__keywords", .scalar (.bool true))]
  have hmem : ∀ y ∈ [flags, pairs], y ∈ [.flag (.text "a&b"), pairs, flags] := by simp
  obtain ⟨-, -, -, -, -, hsame⟩ :=
    write_append .html [.flag (.text "a&b"), pairs, flags] [flags, pairs]
  exact ⟨_, _, rfl, rfl, hmem, (hsame hmem).trans (by decide)⟩

end TagTemplate.Attribute
