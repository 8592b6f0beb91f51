import TagTemplate.Proofs.Template.Steps

/-!
# Compiling accepts exactly the well-nested templates

`Linear env nodes parts` says, without any parser, that `parts` is what `nodes` look like when
they are written out one after another: a text for a text, an output for an output, a block for
a call, and for a call with a body the parts of the body and a block that closes it. A body
holds no call of the name that would close it, since that block would have been the closer.

> `compile_eq_ok_iff_linear`: a source compiles to `nodes` exactly if its parts are `nodes`
> written out, and no other nodes are written out like that.

So every part is used, once and in order. The two halves are statements about a run of
`nodesWithin` in the middle of the parts: a successful run has taken parts that are its nodes
written out and stands where it was told to stop (`linear_of_run`); and parts that are some nodes
written out are taken, whatever follows the place to stop at (`run_of_linear`).
-/

namespace TagTemplate.Template

/-- Is the node a call by this name? -/
def Node.Calls (name : String) : Node → Prop
  | .call _ invocation => invocation.name = name
  | _ => False

/-- The parts are the nodes written out one after another. -/
inductive Linear (env : Environment) : List Node → List Part → Prop
  | nil : Linear env [] []
  | text {content : String} {nodes : List Node} {parts : List Part}
      (hrest : Linear env nodes parts) :
      Linear env (.text content :: nodes) (.text content :: parts)
  | output {content : String} {offset : Nat} {value : Expr} {nodes : List Node} {parts : List Part}
      (hread : Expr.read content = .ok value) (hrest : Linear env nodes parts) :
      Linear env (.output value :: nodes) (.output content offset :: parts)
  | inline {content : String} {offset : Nat} {head : BlockHead} {tag : Tag}
      {args : List Argument} {nodes : List Node} {parts : List Part}
      (hhead : BlockHead.read? content = some head) (htag : env.tag? head.name = some tag)
      (hinline : tag.definition.isBlock = false)
      (hargs : Argument.readList head.args = .ok args) (hrest : Linear env nodes parts) :
      Linear env (.call tag ⟨head.name, args, none⟩ :: nodes) (.block content offset :: parts)
  | block {content closer : String} {offset closerOffset : Nat} {head closerHead : BlockHead}
      {tag : Tag} {args : List Argument} {body nodes : List Node} {inner parts : List Part}
      (hhead : BlockHead.read? content = some head) (htag : env.tag? head.name = some tag)
      (hblock : tag.definition.isBlock = true)
      (hargs : Argument.readList head.args = .ok args) (hbody : Linear env body inner)
      (hdirect : ∀ node ∈ body, ¬ node.Calls (closingName head.name))
      (hcloser : BlockHead.read? closer = some closerHead)
      (hclosing : closerHead.name = closingName head.name) (hrest : Linear env nodes parts) :
      Linear env (.call tag ⟨head.name, args, some body⟩ :: nodes)
        (.block content offset :: (inner ++ .block closer closerOffset :: parts))

/-- Parts at which a run that awaits `awaited` stops: a block of that name, or the end. -/
def StopsAt (awaited : Option String) (parts : List Part) : Prop :=
  match awaited with
  | none => parts = []
  | some name => ∃ content offset rest head,
      parts = .block content offset :: rest ∧ BlockHead.read? content = some head
        ∧ head.name = name

/-- No node is itself a call by the awaited name. -/
def Avoids (awaited : Option String) (nodes : List Node) : Prop :=
  ∀ name, awaited = some name → ∀ node ∈ nodes, ¬ node.Calls name

theorem Avoids.tail {awaited : Option String} {node : Node} {nodes : List Node}
    (h : Avoids awaited (node :: nodes)) : Avoids awaited nodes :=
  fun name hname other hother => h name hname other (List.mem_cons_of_mem _ hother)

theorem Avoids.ne_of_call {awaited : Option String} {tag : Tag}
    {invocation : Invocation (List Argument) (List Node)} {nodes : List Node}
    (h : Avoids awaited (.call tag invocation :: nodes)) : awaited ≠ some invocation.name :=
  fun hname => h _ hname _ (List.mem_cons_self ..) rfl

/-- What a successful run has done: it has taken parts that are its nodes written out, no node is a
call of the name it awaited, and it stands where it was told to stop. -/
structure Taken (env : Environment) (awaited : Option String) (parts : List Part)
    (nodes : List Node) (s : ParserState) : Prop where
  split : ∃ taken, parts = taken ++ s.rest ∧ Linear env nodes taken
  direct : Avoids awaited nodes
  stops : StopsAt awaited s.rest
  pending : s.pending = none

/-- A run that stops at once has taken nothing. -/
theorem Taken.nil {env : Environment} {awaited : Option String} {parts : List Part}
    (h : StopsAt awaited parts) : Taken env awaited parts [] ⟨parts, none⟩ where
  split := ⟨[], rfl, .nil⟩
  direct := fun _ _ _ hnode => absurd hnode List.not_mem_nil
  stops := h
  pending := rfl

/-- One more node in front. -/
theorem Taken.cons {env : Environment} {awaited : Option String} {parts : List Part} {node : Node}
    {nodes : List Node} {s : ParserState} (h : Taken env awaited parts nodes s) (front : List Part)
    (hnode : ∀ name, awaited = some name → ¬ node.Calls name)
    (hlinear : ∀ taken, Linear env nodes taken → Linear env (node :: nodes) (front ++ taken)) :
    Taken env awaited (front ++ parts) (node :: nodes) s := by
  obtain ⟨taken, hparts, htaken⟩ := h.split
  refine ⟨⟨front ++ taken, by rw [hparts, List.append_assoc], hlinear taken htaken⟩, ?_, h.stops,
    h.pending⟩
  intro name hname other hother
  rcases List.mem_cons.mp hother with rfl | hother
  · exact hnode name hname
  · exact h.direct name hname other hother

namespace Parser

variable {p : Parser}

/-! ## A run takes its nodes written out -/

/-- The induction is on the rounds; a body is read with as many rounds as are left. -/
theorem taken_of_run (n : Nat) :
    ∀ {awaited : Option String} {parts : List Part} {nodes : List Node} {s : ParserState},
      parts.length < n → (p.nodesWithin n awaited).run ⟨parts, none⟩ = .ok nodes s →
        Taken p.env awaited parts nodes s := by
  induction n with
  | zero => intro awaited parts nodes s hn h; omega
  | succ n ih =>
    intro awaited parts nodes s hn h
    rw [nodesWithin] at h
    rcases parts with _ | ⟨content | ⟨content, offset⟩ | ⟨content, offset⟩, rest⟩
    · obtain ⟨rfl, rfl, rfl⟩ := round_nil_eq_ok h
      exact .nil rfl
    · obtain ⟨later, rfl, hmore⟩ := round_text_eq_ok h
      rw [List.length_cons] at hn
      exact (ih (by omega) hmore).cons [.text content] (fun _ _ h => h)
        fun taken htaken => .text htaken
    · obtain ⟨value, later, hread, rfl, hmore⟩ := round_output_eq_ok h
      rw [List.length_cons] at hn
      exact (ih (by omega) hmore).cons [.output content offset] (fun _ _ h => h)
        fun taken htaken => .output hread htaken
    · rw [List.length_cons] at hn
      obtain ⟨head, hhead, ⟨rfl, rfl, rfl⟩ | ⟨hawaited, tag, invocation, s', later, htag, hparse,
        rfl, hmore⟩⟩ := round_block_eq_ok h
      · exact .nil ⟨content, offset, rest, head, rfl, hhead, rfl⟩
      have hcalls : ∀ args body name, awaited = some name →
          ¬ Node.Calls name (.call tag ⟨head.name, args, body⟩) := by
        rintro args body name rfl rfl
        exact hawaited rfl
      obtain ⟨args, hargs, ⟨hinline, rfl, rfl⟩ | ⟨hblock, body, closer, closerOffset, after,
        pending, hbody, rfl, rfl⟩⟩ := parse_eq_ok hhead hparse
      · exact (ih (by omega) hmore).cons [.block content offset] (hcalls _ _)
          fun taken htaken => .inline hhead htag hinline hargs htaken
      · -- the body ends at the closer, and the run goes on behind it
        have hinner := ih (by omega) hbody
        obtain ⟨inner, rfl, hlinear⟩ := hinner.split
        obtain ⟨_, _, _, closerHead, hcloserBlock, hcloser, hclosing⟩ := hinner.stops
        cases hcloserBlock
        have hpending : pending = none := hinner.pending
        subst hpending
        rw [List.length_append, List.length_cons] at hn
        have htaken := (ih (by omega) hmore).cons
          (.block content offset :: (inner ++ [.block closer closerOffset])) (hcalls _ _)
          fun taken htaken => by
            rw [List.cons_append, List.append_assoc]
            exact .block hhead htag hblock hargs hlinear (hinner.direct _ rfl) hcloser hclosing
              htaken
        rwa [List.cons_append, List.append_assoc] at htaken

/-! ## Nodes written out are taken -/

/-- The induction is on how the nodes are written out, for any number of rounds that suffices. -/
theorem run_of_linear {nodes : List Node} {parts : List Part} (h : Linear p.env nodes parts) :
    ∀ (awaited : Option String) (after : List Part) (n : Nat), StopsAt awaited after →
      Avoids awaited nodes → (parts ++ after).length < n →
        (p.nodesWithin n awaited).run ⟨parts ++ after, none⟩ = .ok nodes ⟨after, none⟩ := by
  induction h with
  | nil =>
    intro awaited after n hstop hdirect hn
    obtain ⟨n, rfl⟩ := Nat.exists_eq_succ_of_ne_zero (Nat.ne_zero_of_lt hn)
    rw [nodesWithin, List.nil_append]
    cases awaited with
    | none =>
      rw [show after = [] from hstop, run_round_nil]
      rfl
    | some name =>
      obtain ⟨content, offset, rest, head, rfl, hhead, rfl⟩ := hstop
      rw [run_round_block, hhead]
      dsimp only
      rw [if_pos rfl]
  | @text content nodes parts hrest ih =>
    intro awaited after n hstop hdirect hn
    obtain ⟨n, rfl⟩ := Nat.exists_eq_succ_of_ne_zero (Nat.ne_zero_of_lt hn)
    rw [List.cons_append, List.length_cons] at hn
    have hmore := ih awaited after n hstop hdirect.tail (by omega)
    rw [nodesWithin, List.cons_append, run_round_text, hmore]
  | @output content offset value nodes parts hread hrest ih =>
    intro awaited after n hstop hdirect hn
    obtain ⟨n, rfl⟩ := Nat.exists_eq_succ_of_ne_zero (Nat.ne_zero_of_lt hn)
    rw [List.cons_append, List.length_cons] at hn
    have hmore := ih awaited after n hstop hdirect.tail (by omega)
    rw [nodesWithin, List.cons_append, run_round_output, hread]
    dsimp only
    rw [hmore]
  | @inline content offset head tag args nodes parts hhead htag hinline hargs hrest ih =>
    intro awaited after n hstop hdirect hn
    obtain ⟨n, rfl⟩ := Nat.exists_eq_succ_of_ne_zero (Nat.ne_zero_of_lt hn)
    rw [List.cons_append, List.length_cons] at hn
    have hmore := ih awaited after n hstop hdirect.tail (by omega)
    rw [nodesWithin, List.cons_append, run_round_block, hhead]
    dsimp only
    rw [if_neg hdirect.ne_of_call, tagOf_eq_ok_iff.mpr htag]
    dsimp only
    rw [run_parse _ _ hhead, hargs]
    dsimp only
    rw [if_neg (by rw [hinline]; exact Bool.false_ne_true)]
    dsimp only
    rw [hmore]
  | @block content closer offset closerOffset head closerHead tag args body nodes inner parts hhead
      htag hblock hargs hbody hcalls hcloser hclosing hrest ihbody ih =>
    intro awaited after n hstop hdirect hn
    obtain ⟨n, rfl⟩ := Nat.exists_eq_succ_of_ne_zero (Nat.ne_zero_of_lt hn)
    rw [List.cons_append, List.length_cons, List.append_assoc, List.cons_append] at hn
    -- the body is a run of its own that stops at the closer
    have hinner := ihbody (some (closingName head.name))
      (.block closer closerOffset :: (parts ++ after)) n
      ⟨closer, closerOffset, parts ++ after, closerHead, rfl, hcloser, hclosing⟩
      (fun name hname => Option.some.inj hname ▸ hcalls) (by omega)
    rw [List.length_append, List.length_cons] at hn
    have hmore := ih awaited after n hstop hdirect.tail (by omega)
    rw [nodesWithin, List.cons_append, List.append_assoc, List.cons_append, run_round_block, hhead]
    dsimp only
    rw [if_neg hdirect.ne_of_call, tagOf_eq_ok_iff.mpr htag]
    dsimp only
    rw [run_parse _ _ hhead, hargs]
    dsimp only
    rw [if_pos hblock, hinner]
    dsimp only
    rw [hmore]

end Parser

/-! ## Whole templates -/

theorem linear_of_compile {env : Environment} {source : String} {nodes : List Node}
    (h : env.compile source = .ok nodes) : Linear env nodes (Part.ofSource source) := by
  unfold Environment.compile at h
  dsimp only at h
  split at h
  next nodes s hrun =>
    cases h
    rw [Parser.nodes, EStateM.run_bind, EStateM.run_get] at hrun
    have htaken := Parser.taken_of_run _ (Nat.lt_succ_self _) hrun
    obtain ⟨taken, hparts, hlinear⟩ := htaken.split
    rw [show s.rest = [] from htaken.stops, List.append_nil] at hparts
    rw [show Part.ofSource source = taken from hparts]
    exact hlinear
  next => cases h

theorem compile_of_linear {env : Environment} {source : String} {nodes : List Node}
    (h : Linear env nodes (Part.ofSource source)) : env.compile source = .ok nodes := by
  have hrun := Parser.run_of_linear (p := ⟨env, source⟩) h none []
    ((Part.ofSource source).length + 1) rfl (fun _ hname => by cases hname)
    (by rw [List.append_nil]; exact Nat.lt_succ_self _)
  rw [List.append_nil] at hrun
  unfold Environment.compile
  dsimp only
  rw [Parser.nodes, EStateM.run_bind, EStateM.run_get]
  dsimp only [Parser.start]
  rw [hrun]

/-- A source compiles to nodes exactly if its parts are those nodes written out, and it is not any
other nodes written out. -/
theorem compile_eq_ok_iff_linear (env : Environment) (source : String) (nodes : List Node) :
    (env.compile source = .ok nodes ↔ Linear env nodes (Part.ofSource source)) ∧
      (Linear env nodes (Part.ofSource source) →
        ∀ other, Linear env other (Part.ofSource source) → other = nodes) := by
  refine ⟨⟨linear_of_compile, compile_of_linear⟩, fun h other hother => ?_⟩
  have hcompile := compile_of_linear hother
  rw [compile_of_linear h] at hcompile
  exact (Except.ok.inj hcompile).symm

end TagTemplate.Template
