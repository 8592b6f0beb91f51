import Mathlib.Data.List.Chain
import TagTemplate.Expression.Grammar

/-!
# What a reader does with a text

`Reads p cs post` says that `p` takes a part of the text `cs`, wherever that text stands, and that
`post` holds of what it gives and of what it leaves; `Fails p cs` says that `p` takes nothing. Both
forget places and the record of failed rules. There is one lemma for each way in which readers are
made, so that a rule of the grammar is followed from its first part to its last.

A rule that may end in a gap does not say whether it took the gap. So ends are compared by what
comes after them, over the gap (`afterGap`).

> `Series.spaced`: a series of items with separators is read one by one to its end, if each of them
> is read from its place.
-/

namespace TagTemplate.Reader

variable {α β γ δ : Type} {p q : Reader α} {cs : List Char} {post : α → List Char → Prop}

/-- The reader takes a part of the text; `post` holds of what it gives and of what it leaves. -/
def Reads (p : Reader α) (cs : List Char) (post : α → List Char → Prop) : Prop :=
  ∀ place, ∃ a d, p.read? ⟨cs, place⟩ = some (a, d) ∧ post a d.rest

/-- The reader takes nothing of the text. -/
def Fails (p : Reader α) (cs : List Char) : Prop :=
  ∀ place, p.read? ⟨cs, place⟩ = none

/-- A text from the end of the gap at its beginning. -/
def afterGap (cs : List Char) : List Char :=
  cs.dropWhile Lexeme.isGap

theorem afterGap_cons {c : Char} (h : Lexeme.isGap c = false) (cs : List Char) :
    afterGap (c :: cs) = c :: cs := by
  rw [afterGap, List.dropWhile_cons_of_neg (by rw [h]; exact Bool.false_ne_true)]

/-! ## Success -/

theorem Reads.mono {mid : α → List Char → Prop} (h : Reads p cs mid)
    (hpost : ∀ a r, mid a r → post a r) : Reads p cs post := by
  intro place
  obtain ⟨a, d, hread, hmid⟩ := h place
  exact ⟨a, d, hread, hpost a d.rest hmid⟩

theorem Reads.pure {a : α} (h : post a cs) : Reads (pure a) cs post :=
  fun place => ⟨a, ⟨cs, place⟩, read?_pure a _, h⟩

theorem Reads.bind {f : α → Reader β} {mid : α → List Char → Prop}
    {post : β → List Char → Prop} (h : Reads p cs mid)
    (hf : ∀ a r, mid a r → Reads (f a) r post) : Reads (p >>= f) cs post := by
  intro place
  obtain ⟨a, d, hread, hmid⟩ := h place
  obtain ⟨b, e, hnext, hpost⟩ := hf a d.rest hmid d.position
  refine ⟨b, e, ?_, hpost⟩
  rw [read?_bind, hread]
  exact hnext

theorem Reads.map {f : α → β} {post : β → List Char → Prop}
    (h : Reads p cs fun a r => post (f a) r) : Reads (f <$> p) cs post := by
  intro place
  obtain ⟨a, d, hread, hpost⟩ := h place
  exact ⟨f a, d, by rw [read?_map, hread]; rfl, hpost⟩

theorem Reads.left (h : Reads p cs post) : Reads (p <|> q) cs post := by
  intro place
  obtain ⟨a, d, hread, hpost⟩ := h place
  exact ⟨a, d, by rw [read?_orElse, hread]; rfl, hpost⟩

theorem Reads.right (hp : Fails p cs) (hq : Reads q cs post) : Reads (p <|> q) cs post := by
  intro place
  obtain ⟨a, d, hread, hpost⟩ := hq place
  exact ⟨a, d, by rw [read?_orElse, hp place, hread]; rfl, hpost⟩

theorem Reads.optional {post : Option α → List Char → Prop}
    (h : Reads p cs fun a r => post (some a) r) : Reads (optional p) cs post :=
  (h.map).left

theorem Reads.optional_none {post : Option α → List Char → Prop} (h : Fails p cs)
    (hpost : post none cs) : Reads (Reader.optional p) cs post := by
  intro place
  exact ⟨none, ⟨cs, place⟩, by rw [read?_optional, h place]; rfl, hpost⟩

theorem Reads.named {rule : Rule} (h : Reads p cs post) : Reads (named rule p) cs post := by
  intro place
  obtain ⟨a, d, hread, hpost⟩ := h place
  exact ⟨a, d, by rw [read?_named, hread], hpost⟩

/-- The text that was taken is what stands before the text that is left. -/
theorem Reads.located {post : α × Position × List Char → List Char → Prop}
    (h : Reads p cs fun a r => ∀ place, post (a, place, cs.take (cs.length - r.length)) r) :
    Reads (located p) cs post := by
  intro place
  obtain ⟨a, d, hread, hpost⟩ := h place
  exact ⟨_, d, by rw [read?_located, hread]; rfl, hpost place⟩

theorem Reads.lexeme {split : List Char → Lexeme.Split} {taken rest : List Char}
    {post : List Char → List Char → Prop} (h : split cs = some (taken, rest))
    (hpost : post taken rest) : Reads (lexeme split) cs post := by
  intro place
  exact ⟨taken, _, by rw [read?_lexeme, h]; rfl, hpost⟩

theorem Reads.symbol {c : Char} {post : List Char → List Char → Prop} (hpost : post [c] cs) :
    Reads (symbol c) (c :: cs) post :=
  Reads.lexeme (if_pos rfl) hpost

theorem Reads.gap {post : List Char → List Char → Prop}
    (hpost : post (cs.takeWhile Lexeme.isGap) (afterGap cs)) : Reads gap cs post :=
  Reads.lexeme rfl hpost

theorem Reads.endOfInput : Reads endOfInput [] fun _ r => r = [] :=
  fun place => ⟨(), ⟨[], place⟩, rfl, rfl⟩

/-- Goes on behind a symbol. -/
theorem Reads.symbol_bind {c : Char} {f : List Char → Reader α} (h : Reads (f [c]) cs post) :
    Reads (Reader.symbol c >>= f) (c :: cs) post := by
  have hsymbol : Reads (Reader.symbol c) (c :: cs) fun a r => a = [c] ∧ r = cs :=
    Reads.symbol ⟨rfl, rfl⟩
  refine hsymbol.bind ?_
  rintro _ _ ⟨rfl, rfl⟩
  exact h

/-- Goes on behind a gap. -/
theorem Reads.gap_bind {f : List Char → Reader α}
    (h : ∀ blanks, Reads (f blanks) (afterGap cs) post) : Reads (Reader.gap >>= f) cs post := by
  have hgap : Reads Reader.gap cs fun _ r => r = afterGap cs := Reads.gap rfl
  refine hgap.bind ?_
  rintro blanks _ rfl
  exact h blanks

/-- Goes on without what is not there. -/
theorem Reads.optional_none_bind {f : Option α → Reader β} {post : β → List Char → Prop}
    (h : Fails p cs) (hf : Reads (f none) cs post) : Reads (Reader.optional p >>= f) cs post := by
  have hnone : Reads (Reader.optional p) cs fun o r => o = none ∧ r = cs :=
    Reads.optional_none h ⟨rfl, rfl⟩
  refine hnone.bind fun o r ho => ?_
  obtain ⟨rfl, rfl⟩ := ho
  exact hf

/-- Goes on with what was read and with its source. -/
theorem Reads.located_bind {f : α × Position × List Char → Reader β} {mid : α → List Char → Prop}
    {post : β → List Char → Prop} (h : Reads p cs mid)
    (hf : ∀ a r place, mid a r →
      Reads (f (a, place, cs.take (cs.length - r.length))) r post) :
    Reads (Reader.located p >>= f) cs post := by
  have hlocated : Reads (Reader.located p) cs fun x r =>
      mid x.1 r ∧ x.2.2 = cs.take (cs.length - r.length) :=
    Reads.located (h.mono fun a r ha place => ⟨ha, rfl⟩)
  refine hlocated.bind ?_
  rintro ⟨a, place, _⟩ r ⟨ha, rfl⟩
  exact hf a r place ha

/-! ## Failure -/

theorem Fails.bind {f : α → Reader β} (h : Fails p cs) : Fails (p >>= f) cs := by
  intro place
  rw [read?_bind, h place]
  rfl

theorem Fails.bind_of_reads {f : α → Reader β} {mid : α → List Char → Prop} (h : Reads p cs mid)
    (hf : ∀ a r, mid a r → Fails (f a) r) : Fails (p >>= f) cs := by
  intro place
  obtain ⟨a, d, hread, hmid⟩ := h place
  rw [read?_bind, hread]
  exact hf a d.rest hmid d.position

theorem Fails.gap_bind {f : List Char → Reader α} (h : ∀ blanks, Fails (f blanks) (afterGap cs)) :
    Fails (Reader.gap >>= f) cs := by
  have hgap : Reads Reader.gap cs fun _ r => r = afterGap cs := Reads.gap rfl
  refine Fails.bind_of_reads hgap ?_
  rintro blanks _ rfl
  exact h blanks

theorem Fails.map {f : α → β} (h : Fails p cs) : Fails (f <$> p) cs := by
  intro place
  rw [read?_map, h place]
  rfl

theorem Fails.orElse (hp : Fails p cs) (hq : Fails q cs) : Fails (p <|> q) cs := by
  intro place
  rw [read?_orElse, hp place, hq place]
  rfl

theorem Fails.named {rule : Rule} (h : Fails p cs) : Fails (named rule p) cs := by
  intro place
  rw [read?_named, h place]

theorem Fails.located (h : Fails p cs) : Fails (located p) cs := by
  intro place
  rw [read?_located, h place]
  rfl

theorem Fails.lexeme {split : List Char → Lexeme.Split} (h : split cs = none) :
    Fails (lexeme split) cs := by
  intro place
  rw [read?_lexeme, h]
  rfl

theorem Fails.symbol {c : Char} (h : ∀ r, cs ≠ c :: r) : Fails (symbol c) cs := by
  refine Fails.lexeme ?_
  cases cs with
  | nil => rfl
  | cons d r =>
    refine if_neg ?_
    rintro rfl
    exact h r rfl

/-! ## Series -/

/-- Items that `p` reads one after another. In the text an item stands as `text b`, separators
included; `p` is to begin at `body b`, and `next` is the way from what `p` leaves to where it begins
again. What follows an item satisfies `ends`. What is read for an item, seen through `f`, is the
item seen through `g`. -/
structure Series (p : Reader α) (f : α → γ) (g : β → γ) (text body : β → List Char)
    (next : List Char → List Char) (ends : β → List Char → Prop) (items : List β) : Prop where
  begins : ∀ b ∈ items, ∀ rest, next (text b ++ rest) = body b ++ rest
  nonempty : ∀ b ∈ items, text b ≠ []
  follows : items.IsChain fun b b' => ∀ rest, ends b (text b' ++ rest)
  reads : ∀ b ∈ items, ∀ rest, ends b rest →
    Reads p (body b ++ rest) fun a r => f a = g b ∧ afterGap r = next rest

variable {f : α → γ} {g : β → γ} {text body : β → List Char} {next : List Char → List Char}
  {ends : β → List Char → Prop} {items : List β} {b : β} {final : List Char}

/-- What holds in front of every text holds in front of several of them. -/
theorem forall_flatMap_append {q : List Char → Prop} (h : ∀ b ∈ items, ∀ rest, q (text b ++ rest))
    (hfinal : q final) : q (items.flatMap text ++ final) := by
  cases items with
  | nil => exact hfinal
  | cons b rest =>
    rw [List.flatMap_cons, List.append_assoc]
    exact h b (List.mem_cons_self ..) _

theorem forall_getLast?_of_cons {q : β → Prop} (h : ∀ d ∈ (b :: items).getLast?, q d) :
    ∀ d ∈ items.getLast?, q d := by
  cases items with
  | nil => exact fun _ hd => by cases hd
  | cons c rest => rwa [List.getLast?_cons_cons] at h

/-- Where it does not matter what an item is followed by, items of one kind follow each other. -/
theorem isChain_of_forall {q : List Char → Prop} (h : ∀ b ∈ items, ∀ rest, q (text b ++ rest)) :
    items.IsChain fun _ b' => ∀ rest, q (text b' ++ rest) :=
  (List.pairwise_of_forall_mem_list fun _ _ b' hb' => h b' hb').isChain

theorem Series.tail (h : Series p f g text body next ends (b :: items)) :
    Series p f g text body next ends items where
  begins := fun d hd => h.begins d (List.mem_cons_of_mem _ hd)
  nonempty := fun d hd => h.nonempty d (List.mem_cons_of_mem _ hd)
  follows := h.follows.tail
  reads := fun d hd => h.reads d (List.mem_cons_of_mem _ hd)

/-- What follows the first item of a series. -/
theorem Series.ends_flatMap (h : Series p f g text body next ends (b :: items))
    (hfinal : ∀ d ∈ (b :: items).getLast?, ends d final) :
    ends b (items.flatMap text ++ final) := by
  cases items with
  | nil => exact hfinal b rfl
  | cons c rest =>
    rw [List.flatMap_cons, List.append_assoc]
    exact (List.isChain_cons_cons.mp h.follows).1 _

theorem Series.next_cons (h : Series p f g text body next ends (b :: items)) :
    next ((b :: items).flatMap text ++ final) = body b ++ (items.flatMap text ++ final) := by
  rw [List.flatMap_cons, List.append_assoc]
  exact h.begins b (List.mem_cons_self ..) _

/-- There is at least one character for each item that is still to be read. -/
theorem Series.length_le (h : Series p f g text body next ends items)
    (hstart : afterGap cs = next (items.flatMap text ++ final)) :
    items.length ≤ cs.length + 1 := by
  have hflat : ∀ l : List β, (∀ d ∈ l, text d ≠ []) → l.length ≤ (l.flatMap text).length := by
    intro l
    induction l with
    | nil => exact fun _ => Nat.le_refl 0
    | cons d l ih =>
      intro hl
      have hd := List.length_pos_iff.mpr (hl d (List.mem_cons_self ..))
      have hrest := ih fun e he => hl e (List.mem_cons_of_mem _ he)
      rw [List.flatMap_cons, List.length_append, List.length_cons]
      omega
  cases items with
  | nil => exact Nat.zero_le _
  | cons b rest =>
    -- nothing is known of the first body: its separator may be gone
    have hrest := hflat rest h.tail.nonempty
    have hlength : (afterGap cs).length ≤ cs.length := (List.dropWhile_sublist _).length_le
    rw [hstart, h.next_cons, List.length_append, List.length_append] at hlength
    rw [List.length_cons]
    omega

/-- The induction is on the items, for any number of rounds that suffices. -/
theorem Series.upTo (hfail : Fails p (next final)) :
    ∀ {items : List β}, Series p f g text body next ends items →
      (∀ d ∈ items.getLast?, ends d final) → ∀ {cs : List Char} (n : Nat),
        afterGap cs = next (items.flatMap text ++ final) → items.length ≤ n →
          Reads ((do let _ ← gap; p).upTo n) cs fun as r =>
            as.map f = items.map g ∧ afterGap r = next final
  | [], _, _, cs, n, hstart, _ => by
    have hnone : Fails (do let _ ← gap; p) cs :=
      Fails.gap_bind fun _ => hstart ▸ hfail
    -- out of rounds or out of items, the text is left as it is
    cases n with
    | zero => exact Reads.pure ⟨rfl, hstart⟩
    | succ n => exact Reads.right hnone.bind (Reads.pure ⟨rfl, hstart⟩)
  | b :: rest, h, hend, cs, n, hstart, hn => by
    obtain ⟨n, rfl⟩ := Nat.exists_eq_succ_of_ne_zero (Nat.ne_zero_of_lt hn)
    rw [h.next_cons] at hstart
    have hitem := h.reads b (List.mem_cons_self ..) _ (h.ends_flatMap hend)
    rw [← hstart] at hitem
    refine Reads.left (Reads.bind (Reads.gap_bind fun _ => hitem) fun a r ha => ?_)
    refine Reads.bind (Series.upTo hfail h.tail (forall_getLast?_of_cons hend) n ha.2
      (Nat.le_of_succ_le_succ hn)) fun as r' has => ?_
    refine Reads.pure ⟨?_, has.2⟩
    rw [List.map_cons, List.map_cons, ha.1, has.1]

/-- Where no item begins, there is none. -/
theorem Reads.spaced_none_bind {q : List α → Reader δ} {post : δ → List Char → Prop}
    (h : Fails p cs) (hq : Reads (q []) cs post) : Reads (Reader.spaced p >>= q) cs post := by
  have hnone : Reads (Reader.spaced p) cs fun as r => as = [] ∧ r = cs :=
    Reads.right h.bind (Reads.pure ⟨rfl, rfl⟩)
  refine hnone.bind fun as r has => ?_
  obtain ⟨rfl, rfl⟩ := has
  exact hq

/-- A series is read item by item, up to its end. -/
theorem Series.spaced (h : Series p f g text body next ends items)
    (hend : ∀ d ∈ items.getLast?, ends d final)
    (hfail : Fails p (next final)) (hfix : afterGap (next final) = next final)
    (hstart : cs = next (items.flatMap text ++ final)) :
    Reads (spaced p) cs fun as r => as.map f = items.map g ∧ afterGap r = next final := by
  subst hstart
  cases items with
  | nil => exact Reads.right hfail.bind (Reads.pure ⟨rfl, hfix⟩)
  | cons b rest =>
    rw [h.next_cons]
    have hitem := h.reads b (List.mem_cons_self ..) _ (h.ends_flatMap hend)
    refine Reads.left (Reads.bind hitem fun a r ha => ?_)
    have hmore : Reads (many (do let _ ← gap; p)) r fun as r' =>
        as.map f = rest.map g ∧ afterGap r' = next final :=
      Series.upTo hfail h.tail (forall_getLast?_of_cons hend) _ ha.2 (h.tail.length_le ha.2)
    refine Reads.bind hmore fun as r' has => ?_
    refine Reads.pure ⟨?_, has.2⟩
    rw [List.map_cons, List.map_cons, ha.1, has.1]

end TagTemplate.Reader
