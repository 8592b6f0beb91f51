import TagTemplate.Proofs.Template.Linear

/-!
# Nodes in sequence

What a source compiles to is known from its pieces: the offsets at which they stand are for errors
only (`compile_eq_ok_iff_pieces`). Then what is written one after another compiles to the nodes one
after another (`Linear.append`), and a text at the end is the last node (`Linear.of_append_text`).
-/

namespace TagTemplate.Template

variable {env : Environment}

/-! ## Offsets do not matter -/

/-- The part without its offset. -/
def Part.unplaced : Part → Part
  | text content => text content
  | output content _ => output content 0
  | block content _ => block content 0

/-- The part that a piece gives, without its offset. -/
def Piece.part? : Piece → Option Part
  | .text cs => some (.text (String.ofList cs))
  | .marked .output cs => some (.output (String.ofList cs) 0)
  | .marked .block cs => some (.block (String.ofList cs) 0)
  | .marked .comment _ => none

theorem unplaced_ofPieces (offset : Nat) (ps : List Piece) :
    (Part.ofPieces offset ps).map Part.unplaced = ps.filterMap Piece.part? := by
  induction ps generalizing offset with
  | nil => rfl
  | cons p ps ih =>
    rcases p with cs | ⟨_ | _ | _, cs⟩ <;>
      simp only [Part.ofPieces, List.map_cons, ih] <;> rfl

theorem unplaced_eq_text_iff {p : Part} {content : String} :
    p.unplaced = .text content ↔ p = .text content := by
  cases p <;> simp [Part.unplaced]

theorem unplaced_eq_output_iff {p : Part} {content : String} :
    p.unplaced = .output content 0 ↔ ∃ offset, p = .output content offset := by
  cases p <;> simp [Part.unplaced]

theorem unplaced_eq_block_iff {p : Part} {content : String} :
    p.unplaced = .block content 0 ↔ ∃ offset, p = .block content offset := by
  cases p <;> simp [Part.unplaced]

/-- Nodes are written out at any offsets. -/
theorem Linear.of_unplaced {nodes : List Node} {parts : List Part} (h : Linear env nodes parts) :
    ∀ {parts' : List Part}, parts'.map Part.unplaced = parts.map Part.unplaced →
      Linear env nodes parts' := by
  induction h with
  | nil =>
    intro parts' heq
    rw [List.map_eq_nil_iff.mp heq]
    exact .nil
  | text _ ih =>
    intro parts' heq
    obtain ⟨p, rest, rfl, hp, hrest⟩ := List.map_eq_cons_iff.mp heq
    rw [unplaced_eq_text_iff.mp hp]
    exact .text (ih hrest)
  | output hread _ ih =>
    intro parts' heq
    obtain ⟨p, rest, rfl, hp, hrest⟩ := List.map_eq_cons_iff.mp heq
    obtain ⟨offset, rfl⟩ := unplaced_eq_output_iff.mp hp
    exact .output hread (ih hrest)
  | inline hhead htag hinline hargs _ ih =>
    intro parts' heq
    obtain ⟨p, rest, rfl, hp, hrest⟩ := List.map_eq_cons_iff.mp heq
    obtain ⟨offset, rfl⟩ := unplaced_eq_block_iff.mp hp
    exact .inline hhead htag hinline hargs (ih hrest)
  | block hhead htag hblock hargs _ hdirect hcloser hclosing _ ihbody ih =>
    intro parts' heq
    obtain ⟨p, rest, rfl, hp, hrest⟩ := List.map_eq_cons_iff.mp heq
    obtain ⟨offset, rfl⟩ := unplaced_eq_block_iff.mp hp
    rw [List.map_append, List.map_cons] at hrest
    obtain ⟨inner, after, rfl, hinner, hafter⟩ := List.map_eq_append_iff.mp hrest
    obtain ⟨q, rest, rfl, hq, hlater⟩ := List.map_eq_cons_iff.mp hafter
    obtain ⟨closerOffset, rfl⟩ := unplaced_eq_block_iff.mp hq
    exact .block hhead htag hblock hargs (ihbody hinner) hdirect hcloser hclosing (ih hlater)

theorem compile_eq_ok_iff_pieces {source : String} {nodes : List Node} :
    env.compile source = .ok nodes ↔
      Linear env nodes ((pieces source.toList).filterMap Piece.part?) := by
  have hparts : (Part.ofSource source).map Part.unplaced =
      ((pieces source.toList).filterMap Piece.part?).map Part.unplaced := by
    rw [← unplaced_ofPieces 0, List.map_map]
    refine List.map_congr_left fun p _ => ?_
    cases p <;> rfl
  constructor
  · intro h
    exact (linear_of_compile h).of_unplaced hparts.symm
  · intro h
    exact compile_of_linear (h.of_unplaced hparts)

/-! ## One after another -/

theorem Linear.eq_nil {parts : List Part} (h : Linear env [] parts) : parts = [] := by
  cases h
  rfl

theorem Linear.append {first second : List Node} {parts more : List Part}
    (hfirst : Linear env first parts) (hsecond : Linear env second more) :
    Linear env (first ++ second) (parts ++ more) := by
  induction hfirst with
  | nil => exact hsecond
  | text _ ih => exact .text ih
  | output hread _ ih => exact .output hread ih
  | inline hhead htag hinline hargs _ ih => exact .inline hhead htag hinline hargs ih
  | block hhead htag hblock hargs hbody hdirect hcloser hclosing _ _ ih =>
    rw [List.cons_append, List.cons_append, List.append_assoc, List.cons_append]
    exact .block hhead htag hblock hargs hbody hdirect hcloser hclosing ih

/-- A list with a last element, cut in two. -/
theorem eq_append_of_append_singleton {α : Type} {xs front rest : List α} {x : α}
    (h : xs ++ [x] = front ++ rest) (hrest : rest ≠ []) :
    ∃ middle, rest = middle ++ [x] ∧ xs = front ++ middle := by
  rcases List.eq_nil_or_concat rest with hnil | ⟨middle, y, hlast⟩
  · exact absurd hnil hrest
  · rw [List.concat_eq_append] at hlast
    subst hlast
    rw [← List.append_assoc] at h
    obtain ⟨hxs, hx⟩ := List.append_inj' h rfl
    cases hx
    exact ⟨middle, rfl, hxs⟩

/-- A text that is written last is the last node: it is not in the body of a call, which is closed
by a block. -/
theorem Linear.of_append_text {nodes : List Node} {parts : List Part} {content : String}
    (h : Linear env nodes (parts ++ [.text content])) :
    ∃ before, nodes = before ++ [.text content] ∧ Linear env before parts := by
  generalize hall : parts ++ [.text content] = all at h
  induction h generalizing parts with
  | nil =>
    have hne : parts ++ [.text content] ≠ [] := List.append_ne_nil_of_right_ne_nil _ (by simp)
    exact absurd hall hne
  | @text c nodes rest hrest ih =>
    cases parts with
    | nil =>
      cases hall
      cases hrest
      exact ⟨[], rfl, .nil⟩
    | cons p parts =>
      cases hall
      obtain ⟨before, rfl, hbefore⟩ := ih rfl
      exact ⟨_, rfl, .text hbefore⟩
  | output hread hrest ih =>
    cases parts with
    | nil => cases hall
    | cons p parts =>
      cases hall
      obtain ⟨before, rfl, hbefore⟩ := ih rfl
      exact ⟨_, rfl, .output hread hbefore⟩
  | inline hhead htag hinline hargs hrest ih =>
    cases parts with
    | nil => cases hall
    | cons p parts =>
      cases hall
      obtain ⟨before, rfl, hbefore⟩ := ih rfl
      exact ⟨_, rfl, .inline hhead htag hinline hargs hbefore⟩
  | @block _ closer _ closerOffset _ _ _ _ _ _ inner rest hhead htag hblock hargs hbody hdirect
      hcloser hclosing hrest ihbody ih =>
    cases parts with
    | nil => cases hall
    | cons p parts =>
      rw [List.cons_append] at hall
      obtain ⟨rfl, hinner⟩ := List.cons.inj hall
      -- the text is behind the closer, or it would be the closer
      obtain ⟨after, hafter, rfl⟩ := eq_append_of_append_singleton hinner (by simp)
      cases after with
      | nil => cases hafter
      | cons q after =>
        obtain ⟨rfl, rfl⟩ := List.cons.inj hafter
        obtain ⟨before, rfl, hbefore⟩ := ih rfl
        exact ⟨_, rfl, .block hhead htag hblock hargs hbody hdirect hcloser hclosing hbefore⟩

end TagTemplate.Template
