import TagTemplate.Proofs.Expression.Takes
import TagTemplate.Proofs.Position

/-!
# The parts of what was read

What a rule of the language has read, taken apart: one lemma for each rule says what its parts were,
by which readers they were read, and what text stood between them. Whoever follows the grammar from
what is read to what it consists of does it with these lemmas and does not open a rule again.

A part and the text up to the next one are given by the cursors around them (`Cursor.Moves`). Parts
that are repeated are a `Run`. Gaps that a rule takes at its end belong to its last part or stand
behind it, so nothing is said about where they end.

> `primary_eq_some`, `filter_eq_some`, `operand_eq_some`, `expression_eq_some`, `argument_eq_some`,
> `signature_eq_some`: what each of these rules has read.
-/

namespace TagTemplate

/-- The text stands between the two cursors. -/
structure Cursor.Moves (c : Cursor) (text : List Char) (d : Cursor) : Prop where
  rest : c.rest = text ++ d.rest
  position : d.position = c.position.after text

variable {c d e : Cursor} {text text' : List Char}

theorem Cursor.Moves.nil (c : Cursor) : c.Moves [] c :=
  ⟨rfl, rfl⟩

theorem Cursor.Moves.trans (h : c.Moves text d) (h' : d.Moves text' e) :
    c.Moves (text ++ text') e where
  rest := by rw [h.rest, h'.rest, List.append_assoc]
  position := by rw [h'.position, h.position, Position.after_append]

theorem Cursor.Moves.text_eq (h : c.Moves text d) (h' : c.Moves text' d) : text = text' :=
  List.append_cancel_right (h.rest.symm.trans h'.rest)

theorem Cursor.Moves.offset_eq (h : c.Moves text d) :
    d.position.offset = c.position.offset + byteSize text := by
  rw [h.position, Position.offset_after]

/-- What stands in the source behind a place is found at its span. -/
theorem Cursor.Moves.textIn_over {source front back : List Char}
    (h : (Cursor.mk source .start).Moves front c) (hrest : c.rest = text ++ back) :
    (Span.over c.position text).textIn source = text := by
  have hsource : source = front ++ c.rest := h.rest
  rw [h.position, hsource, hrest]
  exact Span.textIn_over front text back

/-! ## Lexemes that are expressions -/

namespace Lexeme

/-- A lexeme that is an expression of this kind is split off, as none of an earlier kind could be. -/
inductive IsLiteral (cs taken left : List Char) : Expr.Kind → Prop
  | float (h : float? cs = some (taken, left)) : IsLiteral cs taken left .float
  | int (h : int? cs = some (taken, left)) : IsLiteral cs taken left .int
  | bool (h : boolean? cs = some (taken, left)) : IsLiteral cs taken left .bool
  | null (h : null? cs = some (taken, left)) : IsLiteral cs taken left .null
  | path (hbool : boolean? cs = none) (hnull : null? cs = none)
      (h : path? cs = some (taken, left)) : IsLiteral cs taken left .path

end Lexeme

open Lexeme (Gap Around MayHaveComma)

namespace Reader

variable {α β : Type} {p q : Reader α} {a : α} {b : β} {as : List α}

/-! ## Readers -/

theorem Takes.moves (hp : Takes p) (h : p.read? c = some (a, d)) : ∃ taken, c.Moves taken d := by
  obtain ⟨taken, -, hrest, hplace⟩ := hp c a d h
  exact ⟨taken, hrest, hplace⟩

theorem bind_eq_some {f : α → Reader β} (h : (p >>= f).read? c = some (b, e)) :
    ∃ a d, p.read? c = some (a, d) ∧ (f a).read? d = some (b, e) := by
  rw [read?_bind] at h
  obtain ⟨⟨a, d⟩, hread, hnext⟩ := Option.bind_eq_some_iff.mp h
  exact ⟨a, d, hread, hnext⟩

theorem orElse_eq_some (h : (p <|> q).read? c = some (a, d)) :
    p.read? c = some (a, d) ∨ p.read? c = none ∧ q.read? c = some (a, d) := by
  rw [read?_orElse] at h
  exact Option.or_eq_some_iff.mp h

theorem lexeme_eq_some {split : List Char → Lexeme.Split} {taken : List Char}
    (htakes : ∀ cs, Lexeme.TakesQuoted cs (split cs))
    (h : (lexeme split).read? c = some (taken, d)) :
    split c.rest = some (taken, d.rest) ∧ c.Moves taken d := by
  rw [read?_lexeme] at h
  obtain ⟨⟨taken, rest⟩, hsplit, heq⟩ := Option.map_eq_some_iff.mp h
  cases heq
  exact ⟨hsplit, (htakes _ _ _ hsplit).1, rfl⟩

theorem symbol_eq_some {ch : Char} {taken : List Char}
    (h : (symbol ch).read? c = some (taken, d)) : taken = [ch] ∧ c.Moves [ch] d := by
  obtain ⟨rest, place⟩ := c
  unfold symbol at h
  rw [read?_lexeme] at h
  cases rest with
  | nil => cases h
  | cons x rest =>
    dsimp only at h
    split at h
    next hx =>
      cases h
      exact ⟨by rw [hx], by rw [← hx]; exact ⟨rfl, rfl⟩⟩
    next => cases h

theorem symbol_bind_eq_some {ch : Char} {f : List Char → Reader β}
    (h : (symbol ch >>= f).read? c = some (b, e)) :
    ∃ d, c.Moves [ch] d ∧ (f [ch]).read? d = some (b, e) := by
  obtain ⟨taken, d, hread, hnext⟩ := bind_eq_some h
  obtain ⟨rfl, hmoves⟩ := symbol_eq_some hread
  exact ⟨d, hmoves, hnext⟩

theorem gap_bind_eq_some {f : List Char → Reader β}
    (h : (gap >>= f).read? c = some (b, e)) :
    ∃ blanks d, Gap blanks ∧ c.Moves blanks d ∧ (f blanks).read? d = some (b, e) := by
  obtain ⟨blanks, d, hread, hnext⟩ := bind_eq_some h
  cases hread
  exact ⟨_, _, Lexeme.gap_takeWhile c.rest, ⟨List.takeWhile_append_dropWhile.symm, rfl⟩, hnext⟩

/-- A symbol between two gaps, and what follows. -/
theorem around_bind_eq_some {ch : Char} {r : Reader β}
    (h : (do let _ ← gap; let _ ← symbol ch; let _ ← gap; r).read? c = some (b, e)) :
    ∃ lead d, Around [ch] lead ∧ c.Moves lead d ∧ r.read? d = some (b, e) := by
  obtain ⟨before, c₁, hbefore, hmoves₁, h⟩ := gap_bind_eq_some h
  obtain ⟨c₂, hmoves₂, h⟩ := symbol_bind_eq_some h
  obtain ⟨after, c₃, hafter, hmoves₃, h⟩ := gap_bind_eq_some h
  exact ⟨_, c₃, ⟨before, after, hbefore, hafter, rfl⟩, hmoves₁.trans (hmoves₂.trans hmoves₃), h⟩

theorem optional_eq_some {found : Option α} (h : (optional p).read? c = some (found, d)) :
    (∃ a, found = some a ∧ p.read? c = some (a, d)) ∨ found = none ∧ d = c := by
  rw [read?_optional] at h
  cases hread : p.read? c with
  | none =>
    rw [hread] at h
    cases h
    exact Or.inr ⟨rfl, rfl⟩
  | some s =>
    rw [hread] at h
    cases h
    exact Or.inl ⟨_, rfl, rfl⟩

theorem endOfInput_eq_some {a : Unit} (h : endOfInput.read? c = some (a, d)) :
    d = c ∧ c.rest = [] := by
  rw [read?_endOfInput] at h
  split at h
  next hempty =>
    cases h
    exact ⟨rfl, List.isEmpty_iff.mp hempty⟩
  next => cases h

/-- What was read, and its source, which is the text up to where the reader stopped. -/
theorem located_bind_eq_some {f : α × Position × List Char → Reader β}
    (h : (located p >>= f).read? c = some (b, e)) :
    ∃ a d source, p.read? c = some (a, d) ∧ (∀ taken, c.Moves taken d → source = taken) ∧
      (f (a, c.position, source)).read? d = some (b, e) := by
  obtain ⟨x, d, hlocated, hnext⟩ := bind_eq_some h
  rw [read?_located] at hlocated
  obtain ⟨⟨a, d⟩, hread, heq⟩ := Option.map_eq_some_iff.mp hlocated
  cases heq
  refine ⟨a, d, _, hread, fun taken hmoves => ?_, hnext⟩
  rw [hmoves.rest, List.length_append, Nat.add_sub_cancel, List.take_left]

/-! ## Repetitions -/

/-- Items that were read one after another, each with a text in front of it. -/
inductive Run (lead : List Char → Prop) (item : Reader α) : Cursor → List α → Cursor → Prop
  | nil (c : Cursor) : Run lead item c [] c
  | cons {c c₁ c₂ d : Cursor} {text : List Char} {a : α} {as : List α} (hlead : lead text)
      (hmoves : c.Moves text c₁) (hitem : item.read? c₁ = some (a, c₂))
      (hmore : Run lead item c₂ as d) : Run lead item c (a :: as) d

variable {lead lead' : List Char → Prop}

/-- The text in front of an item may be divided from it in another way. -/
theorem Run.refine (h : Run lead p c as d)
    (hp : ∀ {text a} {c c₁ c₂ : Cursor}, lead text → c.Moves text c₁ → p.read? c₁ = some (a, c₂) →
      ∃ text' c₁', lead' text' ∧ c.Moves text' c₁' ∧ q.read? c₁' = some (a, c₂)) :
    Run lead' q c as d := by
  induction h with
  | nil c => exact .nil c
  | cons hlead hmoves hitem _ ih =>
    obtain ⟨text', c₁', hlead', hmoves', hitem'⟩ := hp hlead hmoves hitem
    exact .cons hlead' hmoves' hitem' ih

theorem Run.takes (h : Run lead p c as d) (hp : Takes p) : ∃ taken, c.Moves taken d := by
  induction h with
  | nil c => exact ⟨[], .nil c⟩
  | cons _ hmoves hitem _ ih =>
    obtain ⟨taken, htaken⟩ := hp.moves hitem
    obtain ⟨more, hmore⟩ := ih
    exact ⟨_, hmoves.trans (htaken.trans hmore)⟩

/-- The first items of a run are a run, and so are the others. -/
theorem Run.split {bs : List α} (h : Run lead p c (as ++ bs) d) :
    ∃ c₁, Run lead p c as c₁ ∧ Run lead p c₁ bs d := by
  induction as generalizing c with
  | nil => exact ⟨c, .nil c, h⟩
  | cons a as ih =>
    cases h with
    | cons hlead hmoves hitem hmore =>
      obtain ⟨c₁, hfirst, hrest⟩ := ih hmore
      exact ⟨c₁, .cons hlead hmoves hitem hfirst, hrest⟩

/-- What stands in front of the first item may be moved there from elsewhere. -/
theorem Run.cons_moves (h : Run lead p c (a :: as) d) (hmoves : e.Moves text c)
    (hlead : ∀ cs, lead cs → lead (text ++ cs)) : Run lead p e (a :: as) d := by
  cases h with
  | cons hl hm hitem hmore => exact .cons (hlead _ hl) (hmoves.trans hm) hitem hmore

theorem run_of_upTo {n : Nat} (h : ((do let _ ← gap; p).upTo n).read? c = some (as, d)) :
    Run Gap p c as d := by
  induction n generalizing c as with
  | zero =>
    cases h
    exact .nil _
  | succ n ih =>
    rcases orElse_eq_some h with h | ⟨-, h⟩
    · obtain ⟨a, c₁, hitem, h⟩ := bind_eq_some h
      obtain ⟨blanks, c₀, hblanks, hmoves, hitem⟩ := gap_bind_eq_some hitem
      obtain ⟨more, c₂, hmore, h⟩ := bind_eq_some h
      cases h
      exact .cons hblanks hmoves hitem (ih hmore)
    · cases h
      exact .nil _

theorem run_of_many (h : (many (do let _ ← gap; p)).read? c = some (as, d)) : Run Gap p c as d :=
  run_of_upTo (n := c.rest.length + 1) h

/-- A gap and what is repeated behind it, where the gap may be all there is. -/
theorem gap_spaced_bind_eq_some {f : List α → Reader β}
    (h : (do let _ ← gap; let as ← spaced p; f as).read? c = some (b, e)) :
    ∃ as c₁ blanks c₂, Run Gap p c as c₁ ∧ Gap blanks ∧ c₁.Moves blanks c₂ ∧
      (f as).read? c₂ = some (b, e) := by
  obtain ⟨blanks, c₁, hblanks, hmoves, h⟩ := gap_bind_eq_some h
  obtain ⟨as, c₂, hread, h⟩ := bind_eq_some h
  rcases orElse_eq_some hread with hread | ⟨-, hread⟩
  · obtain ⟨a, c₃, hitem, hread⟩ := bind_eq_some hread
    obtain ⟨more, c₄, hmore, hread⟩ := bind_eq_some hread
    cases hread
    exact ⟨_, c₂, [], c₂, .cons hblanks hmoves hitem (run_of_many hmore), Lexeme.gap_nil, .nil _, h⟩
  · cases hread
    exact ⟨_, c, blanks, c₁, .nil c, hblanks, hmoves, h⟩

end Reader

namespace Grammar

open Reader

/-! ## Lexemes -/

theorem lexical_eq_some {rule : Rule} {split : List Char → Lexeme.Split} {taken : List Char}
    (htakes : ∀ cs, Lexeme.TakesQuoted cs (split cs))
    (h : (lexical rule split).read? c = some (taken, d)) :
    split c.rest = some (taken, d.rest) ∧ c.Moves taken d := by
  unfold lexical at h
  rw [read?_named] at h
  exact lexeme_eq_some htakes h

/-- A name that may be given as a string: its source, and what it means. -/
def IsNamed (split : List Char → Lexeme.Split) (cs taken left : List Char) (name : String) : Prop :=
  Lexeme.string? cs = some (taken, left) ∧ name = String.ofList (Lexeme.meaning taken) ∨
    split cs = some (taken, left) ∧ name = String.ofList taken

theorem nameToken_stringOr_eq_some {rule : Rule} {split : List Char → Lexeme.Split} {token : Token}
    (htakes : ∀ cs, Lexeme.TakesQuoted cs (split cs))
    (h : (nameToken (stringOr (lexical rule split))).read? c = some (token, d)) :
    ∃ taken, IsNamed split c.rest taken d.rest token.text ∧ c.Moves taken d ∧
      token.span = .over c.position taken := by
  obtain ⟨name, c₁, source, hread, hsource, h⟩ := located_bind_eq_some h
  cases h
  rcases orElse_eq_some hread with hread | ⟨-, hread⟩
  · rw [read?_map] at hread
    obtain ⟨⟨taken, c₁⟩, hread, heq⟩ := Option.map_eq_some_iff.mp hread
    cases heq
    obtain ⟨hsplit, hmoves⟩ := lexical_eq_some Lexeme.takesQuoted_string? hread
    exact ⟨taken, Or.inl ⟨hsplit, rfl⟩, hmoves, by rw [hsource taken hmoves]⟩
  · obtain ⟨hsplit, hmoves⟩ := lexical_eq_some htakes hread
    exact ⟨name, Or.inr ⟨hsplit, rfl⟩, hmoves, by rw [hsource name hmoves]⟩

theorem key_eq_some {token : Token} (h : key.read? c = some (token, d)) :
    ∃ taken, IsNamed Lexeme.dashedName? c.rest taken d.rest token.text ∧ c.Moves taken d ∧
      token.span = .over c.position taken := by
  unfold key at h
  rw [read?_named] at h
  exact nameToken_stringOr_eq_some Lexeme.takesQuoted_dashedName? h

theorem dictKey_eq_some {token : Token} (h : dictKey.read? c = some (token, d)) :
    ∃ taken, IsNamed Lexeme.name? c.rest taken d.rest token.text ∧ c.Moves taken d ∧
      token.span = .over c.position taken := by
  unfold dictKey at h
  rw [read?_named] at h
  exact nameToken_stringOr_eq_some Lexeme.takesQuoted_name? h

theorem literal_eq_some {kind : Expr.Kind} {rule : Rule} {split : List Char → Lexeme.Split}
    {x : Expr} (htakes : ∀ cs, Lexeme.TakesQuoted cs (split cs))
    (h : (literal kind (lexical rule split)).read? c = some (x, d)) :
    ∃ taken, split c.rest = some (taken, d.rest) ∧ c.Moves taken d ∧
      x = .plain (tokenOf c.position taken) kind [] := by
  obtain ⟨taken, c₁, source, hread, hsource, h⟩ := located_bind_eq_some h
  cases h
  obtain ⟨hsplit, hmoves⟩ := lexical_eq_some htakes hread
  obtain rfl := hsource taken hmoves
  exact ⟨_, hsplit, hmoves, rfl⟩

theorem textLiteral_eq_some {x : Expr} (h : textLiteral.read? c = some (x, d)) :
    ∃ taken, Lexeme.string? c.rest = some (taken, d.rest) ∧ c.Moves taken d ∧
      x = .plain ⟨String.ofList (Lexeme.meaning taken), .over c.position taken⟩ .text [] := by
  obtain ⟨taken, c₁, source, hread, hsource, h⟩ := located_bind_eq_some h
  cases h
  obtain ⟨hsplit, hmoves⟩ := lexical_eq_some Lexeme.takesQuoted_string? hread
  obtain rfl := hsource taken hmoves
  exact ⟨_, hsplit, hmoves, rfl⟩

/-! ## Things in brackets -/

section Bracketed

variable {α : Type} {item : Reader α} {opening closing : Char} {as : List α}

/-- What was read of things in brackets: a gap, or things with commas between them and perhaps one
more comma. -/
inductive Bracketed (opening closing : Char) (item : Reader α) (c : Cursor) :
    List α → Cursor → Prop
  | nil {d : Cursor} {blanks : List Char} (hblanks : Gap blanks)
      (hmoves : c.Moves (opening :: (blanks ++ [closing])) d) : Bracketed opening closing item c [] d
  | cons {c₁ c₂ c₃ d : Cursor} {front tail : List Char} {a : α} {as : List α} (hfront : Gap front)
      (hopen : c.Moves (opening :: front) c₁) (hfirst : item.read? c₁ = some (a, c₂))
      (hmore : Run (Around [',']) item c₂ as c₃) (htail : MayHaveComma tail)
      (hclose : c₃.Moves (tail ++ [closing]) d) : Bracketed opening closing item c (a :: as) d

/-- A comma at the end, or none, and gaps around it. -/
theorem optional_comma_eq_some {found : Option (List Char)} {front : List Char}
    (hfront : Gap front) (hmoves : c.Moves front d)
    (h : (optional (symbol ',')).read? d = some (found, e)) :
    ∃ tail, MayHaveComma tail ∧ c.Moves tail e := by
  rcases optional_eq_some h with ⟨_, -, h⟩ | ⟨-, rfl⟩
  · obtain ⟨-, hcomma⟩ := symbol_eq_some h
    exact ⟨_, Or.inr ⟨front, [], hfront, Lexeme.gap_nil, rfl⟩, hmoves.trans hcomma⟩
  · exact ⟨front, Or.inl hfront, hmoves⟩

theorem bracketed_eq_some (h : (bracketed opening closing item).read? c = some (as, d)) :
    Bracketed opening closing item c as d := by
  obtain ⟨c₁, hopen, h⟩ := symbol_bind_eq_some h
  obtain ⟨front, c₂, hfront, hmoves, h⟩ := gap_bind_eq_some h
  obtain ⟨found, c₃, hfound, h⟩ := bind_eq_some h
  obtain ⟨blanks, c₄, hblanks, hmoves', h⟩ := gap_bind_eq_some h
  obtain ⟨c₅, hclose, h⟩ := symbol_bind_eq_some h
  cases h
  rcases optional_eq_some hfound with ⟨items, rfl, hitems⟩ | ⟨rfl, rfl⟩
  · obtain ⟨first, c₆, hfirst, hitems⟩ := bind_eq_some hitems
    obtain ⟨more, c₇, between, c₈, hmore, hbetween, hmoves₇, hitems⟩ :=
      gap_spaced_bind_eq_some hitems
    obtain ⟨between', c₉, hbetween', hmoves₈, hitems⟩ := gap_bind_eq_some hitems
    obtain ⟨comma, c₁₀, hcomma, hitems⟩ := bind_eq_some hitems
    cases hitems
    obtain ⟨tail, htail, hmoves₁₀⟩ :=
      optional_comma_eq_some (hbetween.append hbetween') (hmoves₇.trans hmoves₈) hcomma
    -- the gap in front of a comma and the comma belong to what stands in front of the next item
    have hrun : Run (Around [',']) item c₆ more c₇ := by
      refine hmore.refine fun {text a c c₁ c₂} hgap hm hnext => ?_
      obtain ⟨c', hcomma, hnext⟩ := symbol_bind_eq_some hnext
      obtain ⟨after, c'', hafter, hm', hnext⟩ := gap_bind_eq_some hnext
      exact ⟨_, c'', ⟨text, after, hgap, hafter, rfl⟩, hm.trans (hcomma.trans hm'), hnext⟩
    refine .cons hfront (hopen.trans hmoves) hfirst hrun (htail.append_gap hblanks) ?_
    rw [List.append_assoc]
    exact hmoves₁₀.trans (hmoves'.trans hclose)
  · refine .nil (hfront.append hblanks) ?_
    rw [List.append_assoc]
    exact hopen.trans (hmoves.trans (hmoves'.trans hclose))

end Bracketed

/-! ## The rules of the language -/

section Inner

variable {inner : Reader Expr} {x : Expr}

theorem dictItem_eq_some {entry : List Expr} (h : (dictItem inner).read? c = some (entry, d)) :
    ∃ name c₁ lead c₂ value, dictKey.read? c = some (name, c₁) ∧ Around [':'] lead ∧
      c₁.Moves lead c₂ ∧ inner.read? c₂ = some (value, d) ∧
        entry = [.plain name .text [], value] := by
  unfold dictItem at h
  rw [read?_named] at h
  obtain ⟨name, c₁, hname, h⟩ := bind_eq_some h
  obtain ⟨lead, c₂, hlead, hmoves, h⟩ := around_bind_eq_some h
  obtain ⟨value, c₃, hvalue, h⟩ := bind_eq_some h
  cases h
  exact ⟨name, c₁, lead, c₂, value, hname, hlead, hmoves, hvalue, rfl⟩

/-- What was read of a primary expression. -/
inductive Primary (inner : Reader Expr) (c : Cursor) : Expr → Cursor → Prop
  | group {c₁ c₂ d : Cursor} {front back : List Char} {x : Expr} (hfront : Gap front)
      (hopen : c.Moves ('(' :: front) c₁) (hinner : inner.read? c₁ = some (x, c₂))
      (hback : Gap back) (hclose : c₂.Moves (back ++ [')']) d) : Primary inner c x d
  | list {d : Cursor} {taken : List Char} {items : List Expr}
      (hitems : Bracketed '[' ']' inner c items d) (hmoves : c.Moves taken d) :
      Primary inner c (.plain (tokenOf c.position taken) .list items) d
  | dict {d : Cursor} {taken : List Char} {entries : List (List Expr)}
      (hentries : Bracketed '\x7b' '\x7d' (dictItem inner) c entries d) (hmoves : c.Moves taken d) :
      Primary inner c (.plain (tokenOf c.position taken) .dict entries.flatten) d
  | literal {d : Cursor} {taken : List Char} {kind : Expr.Kind}
      (hliteral : Lexeme.IsLiteral c.rest taken d.rest kind) (hmoves : c.Moves taken d) :
      Primary inner c (.plain (tokenOf c.position taken) kind []) d
  | text {d : Cursor} {taken : List Char}
      (hstring : Lexeme.string? c.rest = some (taken, d.rest)) (hmoves : c.Moves taken d) :
      Primary inner c
        (.plain ⟨String.ofList (Lexeme.meaning taken), .over c.position taken⟩ .text []) d

theorem lexical_eq_none {rule : Rule} {split : List Char → Lexeme.Split} {kind : Expr.Kind}
    (h : (literal kind (lexical rule split)).read? c = none) : split c.rest = none := by
  cases hsplit : split c.rest with
  | none => rfl
  | some s =>
    unfold literal lexical at h
    rw [read?_bind, read?_located, read?_named, read?_lexeme, hsplit] at h
    cases h

variable (hinner : Takes inner)
include hinner

theorem primary_eq_some (h : (primary inner).read? c = some (x, d)) : Primary inner c x d := by
  rcases orElse_eq_some h with h | ⟨-, h⟩
  · unfold group at h
    rw [read?_named] at h
    obtain ⟨c₁, hopen, h⟩ := symbol_bind_eq_some h
    obtain ⟨front, c₂, hfront, hmoves, h⟩ := gap_bind_eq_some h
    obtain ⟨y, c₃, hread, h⟩ := bind_eq_some h
    obtain ⟨back, c₄, hback, hmoves', h⟩ := gap_bind_eq_some h
    obtain ⟨c₅, hclose, h⟩ := symbol_bind_eq_some h
    cases h
    exact .group hfront (hopen.trans hmoves) hread hback (hmoves'.trans hclose)
  rcases orElse_eq_some h with h | ⟨-, h⟩
  · obtain ⟨taken, hmoves⟩ := (takes_list hinner).moves h
    obtain ⟨items, c₁, source, hread, hsource, h⟩ := located_bind_eq_some h
    cases h
    rw [read?_named] at hread
    rw [hsource taken hmoves]
    exact .list (bracketed_eq_some hread) hmoves
  rcases orElse_eq_some h with h | ⟨-, h⟩
  · obtain ⟨taken, hmoves⟩ := (takes_dict hinner).moves h
    obtain ⟨entries, c₁, source, hread, hsource, h⟩ := located_bind_eq_some h
    cases h
    rw [read?_named] at hread
    rw [hsource taken hmoves]
    exact .dict (bracketed_eq_some hread) hmoves
  rcases orElse_eq_some h with h | ⟨-, h⟩
  · obtain ⟨taken, hsplit, hmoves, rfl⟩ := literal_eq_some Lexeme.takesQuoted_float? h
    exact .literal (.float hsplit) hmoves
  rcases orElse_eq_some h with h | ⟨-, h⟩
  · obtain ⟨taken, hsplit, hmoves, rfl⟩ := literal_eq_some Lexeme.takesQuoted_int? h
    exact .literal (.int hsplit) hmoves
  rcases orElse_eq_some h with h | ⟨hbool, h⟩
  · obtain ⟨taken, hsplit, hmoves, rfl⟩ := literal_eq_some Lexeme.takesQuoted_boolean? h
    exact .literal (.bool hsplit) hmoves
  rcases orElse_eq_some h with h | ⟨hnull, h⟩
  · obtain ⟨taken, hsplit, hmoves, rfl⟩ := literal_eq_some Lexeme.takesQuoted_null? h
    exact .literal (.null hsplit) hmoves
  rcases orElse_eq_some h with h | ⟨-, h⟩
  · obtain ⟨taken, hsplit, hmoves, rfl⟩ := textLiteral_eq_some h
    exact .text hsplit hmoves
  · obtain ⟨taken, hsplit, hmoves, rfl⟩ := literal_eq_some Lexeme.takesQuoted_path? h
    exact .literal (.path (lexical_eq_none hbool) (lexical_eq_none hnull) hsplit) hmoves

/-- What was read of a filter: its bar and its name, and its arguments or the gap in their place. -/
inductive Filter (inner : Reader Expr) (c : Cursor) : FilterCall Expr → Cursor → Prop
  | bare {c₁ c₂ d : Cursor} {front name back : List Char} {token : Token} {span : Span}
      (hfront : Gap front) (hbar : c.Moves ('|' :: front) c₁)
      (hsplit : Lexeme.name? c₁.rest = some (name, c₂.rest)) (hname : c₁.Moves name c₂)
      (htoken : token.text = String.ofList name) (hback : Gap back) (hmoves : c₂.Moves back d) :
      Filter inner c ⟨token, [], span⟩ d
  | args {c₁ c₂ c₃ d : Cursor} {front name back : List Char} {token : Token} {args : List Expr}
      {span : Span} (hfront : Gap front) (hbar : c.Moves ('|' :: front) c₁)
      (hsplit : Lexeme.name? c₁.rest = some (name, c₂.rest)) (hname : c₁.Moves name c₂)
      (htoken : token.text = String.ofList name) (hback : Gap back) (hmoves : c₂.Moves back c₃)
      (hargs : Bracketed '(' ')' inner c₃ args d) : Filter inner c ⟨token, args, span⟩ d

omit hinner in
theorem filter_eq_some {f : FilterCall Expr} (h : (filter inner).read? c = some (f, d)) :
    Filter inner c f d := by
  unfold filter at h
  rw [read?_named] at h
  obtain ⟨⟨token, args⟩, c₁, source, hread, -, h⟩ := located_bind_eq_some h
  cases h
  obtain ⟨c₂, hbar, hread⟩ := symbol_bind_eq_some hread
  obtain ⟨front, c₃, hfront, hmoves₃, hread⟩ := gap_bind_eq_some hread
  obtain ⟨token', c₄, htoken, hread⟩ := bind_eq_some hread
  obtain ⟨back, c₅, hback, hmoves₅, hread⟩ := gap_bind_eq_some hread
  obtain ⟨found, c₆, hfound, hread⟩ := bind_eq_some hread
  cases hread
  obtain ⟨name, c₇, source', hname, -, htoken⟩ := located_bind_eq_some htoken
  cases htoken
  obtain ⟨hsplit, hmoves₇⟩ := lexical_eq_some Lexeme.takesQuoted_name? hname
  rcases optional_eq_some hfound with ⟨args, rfl, hargs⟩ | ⟨rfl, rfl⟩
  · rw [read?_named] at hargs
    exact .args hfront (hbar.trans hmoves₃) hsplit hmoves₇ rfl hback hmoves₅
      (bracketed_eq_some hargs)
  · exact .bare hfront (hbar.trans hmoves₃) hsplit hmoves₇ rfl hback hmoves₅

omit hinner in
/-- A chain of filters is one or more of them. -/
theorem filterChain_eq_some {fs : List (FilterCall Expr)}
    (h : (filterChain inner).read? c = some (fs, d)) :
    ∃ c₁ blanks, fs ≠ [] ∧ Run Gap (filter inner) c fs c₁ ∧ Gap blanks ∧ c₁.Moves blanks d := by
  unfold filterChain at h
  rw [read?_named] at h
  obtain ⟨first, c₁, hfirst, h⟩ := bind_eq_some h
  obtain ⟨more, c₂, blanks, c₃, hmore, hblanks, hmoves, h⟩ := gap_spaced_bind_eq_some h
  cases h
  exact ⟨c₂, blanks, List.cons_ne_nil _ _, .cons Lexeme.gap_nil (.nil c) hfirst hmore, hblanks,
    hmoves⟩

/-- A primary expression and any number of filters. -/
theorem operand_eq_some (h : (operand inner).read? c = some (x, d)) :
    ∃ y c₁ fs c₂ blanks taken, Primary inner c y c₁ ∧ Run Gap (filter inner) c₁ fs c₂ ∧
      Gap blanks ∧ c₂.Moves blanks d ∧ c.Moves taken d ∧
        x = y.withFilters fs (tokenOf c.position taken).span := by
  obtain ⟨taken, hmoves⟩ := (takes_operand hinner).moves h
  unfold operand at h
  rw [read?_named] at h
  obtain ⟨⟨y, fs⟩, c₁, source, hread, hsource, h⟩ := located_bind_eq_some h
  cases h
  rw [hsource taken hmoves]
  obtain ⟨y', c₂, hprimary, hread⟩ := bind_eq_some hread
  obtain ⟨front, c₃, hfront, hmoves₃, hread⟩ := gap_bind_eq_some hread
  obtain ⟨found, c₄, hfound, hread⟩ := bind_eq_some hread
  cases hread
  have hprimary := primary_eq_some hinner hprimary
  rcases optional_eq_some hfound with ⟨fs, rfl, hchain⟩ | ⟨rfl, rfl⟩
  · obtain ⟨c₅, blanks, hne, hrun, hblanks, hmoves₅⟩ := filterChain_eq_some hchain
    obtain ⟨first, more, rfl⟩ := List.exists_cons_of_ne_nil hne
    exact ⟨_, c₂, _, c₅, blanks, taken, hprimary,
      hrun.cons_moves hmoves₃ fun _ hgap => hfront.append hgap, hblanks, hmoves₅, hmoves, rfl⟩
  · exact ⟨_, c₂, [], c₂, front, taken, hprimary, .nil c₂, hfront, hmoves₃, hmoves, rfl⟩

/-- What was read of an expression: one operand, or several with pluses between them. -/
inductive Expression (inner : Reader Expr) (c : Cursor) : Expr → Cursor → Prop
  | single {c₁ d : Cursor} {back : List Char} {x : Expr}
      (hread : (operand inner).read? c = some (x, c₁)) (hback : Gap back)
      (hmoves : c₁.Moves back d) : Expression inner c x d
  | sum {c₁ c₂ d : Cursor} {back taken : List Char} {first second : Expr} {more : List Expr}
      (hfirst : (operand inner).read? c = some (first, c₁))
      (hmore : Run (Around ['+']) (operand inner) c₁ (second :: more) c₂) (hback : Gap back)
      (hmoves : c₂.Moves back d) (htaken : c.Moves taken d) :
      Expression inner c (.plain (tokenOf c.position taken) .sum (first :: second :: more)) d

theorem expression_eq_some (h : (expression inner).read? c = some (x, d)) :
    Expression inner c x d := by
  obtain ⟨taken, htaken⟩ := (takes_expression hinner).moves h
  unfold expression at h
  rw [read?_named] at h
  obtain ⟨⟨first, operands⟩, c₁, source, hread, hsource, h⟩ := located_bind_eq_some h
  obtain ⟨first', c₂, hfirst, hread⟩ := bind_eq_some hread
  obtain ⟨operands', c₃, back, c₄, hmore, hback, hmoves, hread⟩ := gap_spaced_bind_eq_some hread
  cases hread
  have hrun : Run (Around ['+']) (operand inner) c₂ operands c₃ := by
    refine hmore.refine fun {text a c c₁ c₂} hgap hm hnext => ?_
    obtain ⟨c', hplus, hnext⟩ := symbol_bind_eq_some hnext
    obtain ⟨after, c'', hafter, hm', hnext⟩ := gap_bind_eq_some hnext
    exact ⟨_, c'', ⟨text, after, hgap, hafter, rfl⟩, hm.trans (hplus.trans hm'), hnext⟩
  cases operands with
  | nil =>
    cases h
    cases hrun
    exact .single hfirst hback hmoves
  | cons second more =>
    cases h
    rw [hsource taken htaken]
    exact .sum hfirst hrun hback hmoves htaken

/-- What was read of an argument: a key, an equals sign and a value, or a value on its own. -/
inductive IsArgument (inner : Reader Expr) (c : Cursor) : Argument → Cursor → Prop
  | keyed {c₁ c₂ d : Cursor} {lead taken : List Char} {name : Token} {value : Expr}
      (hkey : key.read? c = some (name, c₁)) (hlead : Around ['='] lead) (hmoves : c₁.Moves lead c₂)
      (hvalue : (expression inner).read? c₂ = some (value, d)) (htaken : c.Moves taken d) :
      IsArgument inner c ⟨some name, value, (tokenOf c.position taken).span⟩ d
  | bare {d : Cursor} {taken : List Char} {value : Expr}
      (hvalue : (expression inner).read? c = some (value, d)) (htaken : c.Moves taken d) :
      IsArgument inner c ⟨none, value, (tokenOf c.position taken).span⟩ d

theorem argument_eq_some {a : Argument} (h : (argument inner).read? c = some (a, d)) :
    IsArgument inner c a d := by
  obtain ⟨taken, htaken⟩ := (takes_argument hinner).moves h
  unfold argument at h
  rw [read?_named] at h
  obtain ⟨⟨found, value⟩, c₁, source, hread, hsource, h⟩ := located_bind_eq_some h
  cases h
  rw [hsource taken htaken]
  rcases orElse_eq_some hread with hread | ⟨-, hread⟩
  · obtain ⟨name, c₂, hkey, hread⟩ := bind_eq_some hread
    obtain ⟨lead, c₃, hlead, hmoves, hread⟩ := around_bind_eq_some hread
    obtain ⟨value', c₄, hvalue, hread⟩ := bind_eq_some hread
    cases hread
    exact .keyed hkey hlead hmoves hvalue htaken
  · obtain ⟨value', c₂, hvalue, hread⟩ := bind_eq_some hread
    cases hread
    exact .bare hvalue htaken

omit hinner in
/-- Commas behind arguments, in front of the arguments that follow. -/
theorem run_argument {c₀ : Cursor} {args : List Argument} {lead : List Char}
    (h : Run Gap (do
      let a ← argument inner
      let _ ← gap
      let _ ← optional (symbol ',')
      pure a) c args d) (hlead : MayHaveComma lead) (hmoves : c₀.Moves lead c) :
    ∃ c₁ tail, Run MayHaveComma (argument inner) c₀ args c₁ ∧ MayHaveComma tail ∧
      c₁.Moves tail d := by
  induction h generalizing c₀ lead with
  | nil c => exact ⟨c₀, lead, .nil c₀, hlead, hmoves⟩
  | cons hgap hm hitem _ ih =>
    obtain ⟨a, c₁, hread, hitem⟩ := bind_eq_some hitem
    obtain ⟨blanks, c₂, hblanks, hmoves₂, hitem⟩ := gap_bind_eq_some hitem
    obtain ⟨comma, c₃, hcomma, hitem⟩ := bind_eq_some hitem
    cases hitem
    obtain ⟨tail, htail, hmoves₃⟩ := optional_comma_eq_some hblanks hmoves₂ hcomma
    obtain ⟨c₄, last, hrun, hlast, hmoves₄⟩ := ih htail hmoves₃
    exact ⟨c₄, last, .cons (hlead.append_gap hgap) (hmoves.trans hm) hread hrun, hlast, hmoves₄⟩

omit hinner in
theorem signature_eq_some {args : List Argument}
    (h : (signature inner).read? c = some (args, d)) :
    ∃ c₁ tail, Run MayHaveComma (argument inner) c args c₁ ∧ MayHaveComma tail ∧
      c₁.Moves tail d ∧ d.rest = [] := by
  unfold signature at h
  rw [read?_named] at h
  obtain ⟨items, c₁, blanks, c₂, hrun, hblanks, hmoves, h⟩ := gap_spaced_bind_eq_some h
  obtain ⟨more, c₃, hmore, hmoves₃, h⟩ := gap_bind_eq_some h
  obtain ⟨_, c₄, hend, h⟩ := bind_eq_some h
  cases h
  obtain ⟨c₅, tail, hrun, htail, hmoves₅⟩ :=
    run_argument hrun (Or.inl Lexeme.gap_nil) (.nil c)
  obtain ⟨rfl, hnil⟩ := endOfInput_eq_some hend
  exact ⟨c₅, _, hrun, htail.append_gap (hblanks.append hmore),
    hmoves₅.trans (hmoves.trans hmoves₃), hnil⟩

omit hinner in
theorem output_eq_some (h : (output inner).read? c = some (x, d)) :
    ∃ front c₁ c₂ back, Gap front ∧ c.Moves front c₁ ∧ (expression inner).read? c₁ = some (x, c₂) ∧
      Gap back ∧ c₂.Moves back d ∧ d.rest = [] := by
  unfold output at h
  rw [read?_named] at h
  obtain ⟨front, c₁, hfront, hmoves, h⟩ := gap_bind_eq_some h
  obtain ⟨y, c₂, hread, h⟩ := bind_eq_some h
  obtain ⟨back, c₃, hback, hmoves₃, h⟩ := gap_bind_eq_some h
  obtain ⟨_, c₄, hend, h⟩ := bind_eq_some h
  cases h
  obtain ⟨rfl, hnil⟩ := endOfInput_eq_some hend
  exact ⟨front, c₁, c₂, back, hfront, hmoves, hread, hback, hmoves₃, hnil⟩

end Inner

end Grammar

end TagTemplate
