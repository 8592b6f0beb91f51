import Mathlib.Logic.Relation
import TagTemplate.Proofs.Template.Blame
import TagTemplate.Proofs.Template.Markup

/-!
# A parser and its tags stay in step

Reading nodes and parsing tags call each other: a round reads a node, for a block it hands over to
the definition of a tag, which asks for a body, and that is nodes again. They share the parts that
are left and the arguments of the block that was named last, and each relies on the other to leave
these as it needs them.

How a round goes on is said from outside, by what it fails with: if the steps that it is made of
fail, a round fails in the state in which it took the first of them (`GoesOn`, `ReadsBody`). What a
round gives depends on nothing else (`run_round_congr`).

> `inStep`: every round that goes on has taken parts, and so has every body, so that reading ends;
> no arguments are left over where reading begins or ends; a body ends at its closer; and no fault
> of compiling is one that a tag out of order would cause.
-/

namespace TagTemplate.Template.Parser

/-! ## What a round enters -/

/-- A round that begins in `s` goes on in `t`: it is there that it fails if further nodes fail. -/
def GoesOn (p : Parser) (readBody : String → Parse (List Node)) (awaited : Option String)
    (s t : ParserState) : Prop :=
  ∀ e, (p.round readBody (throw e) awaited).run s = .error e t

/-- A round that begins in `s` reads a body up to the block `name` from `t`: it is there that it
fails if that body fails, whatever further nodes do. -/
def ReadsBody (p : Parser) (awaited : Option String) (s : ParserState) (name : String)
    (t : ParserState) : Prop :=
  ∀ (e : String → TemplateError) (more : Parse (List Node)),
    (p.round (fun other => throw (e other)) more awaited).run s = .error (e name) t

/-- Reading nodes comes to read nodes: further ones in the same place, or those of a body. -/
inductive Enters (p : Parser) : Option String × ParserState → Option String × ParserState → Prop
  | goesOn {awaited : Option String} {s t : ParserState}
      (h : p.GoesOn (fun name => p.nodes (some name)) awaited s t) :
      p.Enters (awaited, s) (awaited, t)
  | body {awaited : Option String} {s t : ParserState} {name : String}
      (h : p.ReadsBody awaited s name t) : p.Enters (awaited, s) (some name, t)

/-- Compiling comes to read nodes up to `awaited` from `s`. -/
def Reaches (p : Parser) (awaited : Option String) (s : ParserState) : Prop :=
  Relation.ReflTransGen p.Enters (none, p.start) (awaited, s)

variable {p : Parser} {awaited : Option String} {s t : ParserState}
  {readBody readBody' : String → Parse (List Node)} {more more' : Parse (List Node)}

/-! ## What a round does -/

/-- What a round does in a state, whatever reads bodies and further nodes: it stops; or it takes one
part, for a node, and goes on; or it takes a block, reads a body, and goes on behind the next
block. -/
inductive RoundFrom (p : Parser) (awaited : Option String) (s : ParserState) : Prop
  | stops (result : EStateM.Result TemplateError ParserState (List Node))
      (hrun : ∀ readBody more, (p.round readBody more awaited).run s = result)
  | takes (node : Node) (part : Part) (t : ParserState) (hrest : s.rest = part :: t.rest)
      (hpending : s.pending = none → t.pending = none)
      (hrun : ∀ readBody more, (p.round readBody more awaited).run s =
        (more >>= fun nodes => pure (node :: nodes)).run t)
  | calls (content : String) (offset : Nat) (head : BlockHead) (rest : List Part)
      (call : List Node → Node) (hrest : s.rest = .block content offset :: rest)
      (hhead : BlockHead.read? content = some head)
      (hrun : ∀ readBody more, (p.round readBody more awaited).run s =
        (do
          let body ← readBody (closingName head.name)
          p.leaveBlock
          let nodes ← more
          pure (call body :: nodes)).run ⟨rest, none⟩)

theorem leaveBlock_eq_ok {done : Unit} (h : p.leaveBlock.run s = .ok done t) :
    (∃ content offset, s.rest = .block content offset :: t.rest) ∧ t.pending = s.pending := by
  rw [run_leaveBlock] at h
  split at h
  next content offset after hrest =>
    cases h
    exact ⟨⟨content, offset, hrest⟩, rfl⟩
  next => cases h

/-- One node and then further ones. -/
theorem run_node_more (node : Node) :
    (more >>= fun nodes => pure (node :: nodes)).run s
      = match more.run s with
        | .ok nodes s => .ok (node :: nodes) s
        | .error e s => .error e s := by
  rw [EStateM.run_bind]
  cases more.run s <;> rfl

section Block

variable {content : String} {offset : Nat} {head : BlockHead} {tag : Tag} {rest : List Part}
  {pending : Option PendingArguments}

/-- A round at a block with a tag: the invocation, and then further nodes. -/
theorem run_round_call (hhead : BlockHead.read? content = some head)
    (hawaited : awaited ≠ some head.name) (htag : p.tagOf head.name offset = .ok tag) :
    (p.round readBody more awaited).run ⟨.block content offset :: rest, pending⟩ =
      (tag.definition.parse (p.hostWith readBody) >>= fun invocation =>
        more >>= fun nodes => pure (.call tag invocation :: nodes)).run
          ⟨.block content offset :: rest, pending⟩ := by
  rw [run_round_block, hhead, EStateM.run_bind]
  simp only [if_neg hawaited, htag]
  cases (tag.definition.parse (p.hostWith readBody)).run
    ⟨.block content offset :: rest, pending⟩ with
  | error e s => rfl
  | ok invocation s => exact (run_node_more _).symm

/-- It stops at arguments that cannot be read, and a block tag reads a body. -/
theorem roundFrom_call (hhead : BlockHead.read? content = some head)
    (hawaited : awaited ≠ some head.name) (htag : p.tagOf head.name offset = .ok tag) :
    p.RoundFrom awaited ⟨.block content offset :: rest, pending⟩ := by
  cases hargs : Argument.readList head.args with
  | error e =>
    refine .stops (.error (p.readFault (offset + head.offset) e)
      ⟨.block content offset :: rest, none⟩) fun readBody more => ?_
    rw [run_round_call hhead hawaited htag, EStateM.run_bind, run_parse _ _ hhead, hargs]
  | ok args =>
    cases hblock : tag.definition.isBlock with
    | false =>
      refine .takes (.call tag ⟨head.name, args, none⟩) _ ⟨rest, none⟩ rfl (fun _ => rfl)
        fun readBody more => ?_
      rw [run_round_call hhead hawaited htag, EStateM.run_bind, run_parse _ _ hhead, hargs, hblock]
      rfl
    | true =>
      refine .calls _ _ _ _ (fun body => .call tag ⟨head.name, args, some body⟩) rfl hhead
        fun readBody more => ?_
      rw [run_round_call hhead hawaited htag, EStateM.run_bind, run_parse _ _ hhead, hargs,
        EStateM.run_bind]
      dsimp only
      rw [if_pos hblock]
      cases (readBody (closingName head.name)).run ⟨rest, none⟩ with
      | error e s => rfl
      | ok body s =>
        dsimp only
        rw [EStateM.run_bind, run_leaveBlock]
        rcases s with ⟨_ | ⟨_ | _ | _, after⟩, pending⟩ <;> rfl

end Block

/-- Every round is of one of these shapes. -/
theorem roundFrom (p : Parser) (awaited : Option String) (s : ParserState) :
    p.RoundFrom awaited s := by
  obtain ⟨parts, pending⟩ := s
  rcases parts with _ | ⟨content | ⟨content, offset⟩ | ⟨content, offset⟩, rest⟩
  · exact .stops _ fun _ _ => run_round_nil
  · exact .takes _ _ ⟨rest, pending⟩ rfl id fun _ _ => run_round_text.trans (run_node_more _).symm
  · cases hread : Expr.read content with
    | error e => exact .stops _ fun _ _ => by rw [run_round_output, hread]
    | ok value =>
      exact .takes (.output value) _ ⟨rest, pending⟩ rfl id fun _ _ => by
        rw [run_round_output, hread]
        exact (run_node_more _).symm
  · cases hhead : BlockHead.read? content with
    | none => exact .stops _ fun _ _ => by rw [run_round_block, hhead]
    | some head =>
      by_cases hawaited : awaited = some head.name
      · exact .stops _ fun _ _ => by rw [run_round_block, hhead]; exact if_pos hawaited
      · cases htag : p.tagOf head.name offset with
        | error e =>
          refine .stops (.error e ⟨.block content offset :: rest, pending⟩) fun _ _ => ?_
          rw [run_round_block, hhead]
          simp only [if_neg hawaited, htag]
        | ok tag => exact roundFrom_call hhead hawaited htag

/-! ## What a round depends on -/

/-- What a round gives depends on the body that it reads and on the nodes that it goes on with,
where it does. -/
theorem run_round_congr
    (hbody : ∀ name t, p.ReadsBody awaited s name t →
      (readBody name).run t = (readBody' name).run t)
    (hmore : ∀ t, p.GoesOn readBody' awaited s t → more.run t = more'.run t) :
    (p.round readBody more awaited).run s = (p.round readBody' more' awaited).run s := by
  cases p.roundFrom awaited s with
  | stops result hrun => rw [hrun, hrun]
  | takes node part t hrest hpending hrun =>
    have hgoes : p.GoesOn readBody' awaited s t := fun e => by rw [hrun]; rfl
    rw [hrun, hrun, EStateM.run_bind, EStateM.run_bind, hmore t hgoes]
  | calls content offset head rest call hrest hhead hrun =>
    have hreads : p.ReadsBody awaited s (closingName head.name) ⟨rest, none⟩ :=
      fun e more => by rw [hrun]; rfl
    rw [hrun, hrun, EStateM.run_bind, EStateM.run_bind, hbody _ _ hreads]
    cases hbody' : (readBody' (closingName head.name)).run ⟨rest, none⟩ with
    | error e s => rfl
    | ok body s' =>
      have hgoes : ∀ t, p.leaveBlock.run s' = .ok () t → p.GoesOn readBody' awaited s t := by
        intro t hleave e
        rw [hrun, EStateM.run_bind, hbody']
        dsimp only
        rw [EStateM.run_bind, hleave]
        rfl
      dsimp only
      rw [EStateM.run_bind, EStateM.run_bind]
      cases hleave : p.leaveBlock.run s' with
      | error e s => rfl
      | ok _ t =>
        dsimp only
        rw [EStateM.run_bind, EStateM.run_bind, hmore t (hgoes t hleave)]

/-- What does not depend on an error does not pass every error on. -/
theorem not_forall_eq_error {α : Type} {x : EStateM.Result TemplateError ParserState α} :
    ¬ ∀ e, x = .error e t := by
  intro h
  have hsame := (h (.undefinedVariable "")).symm.trans (h (.unknownFilter ""))
  cases hsame

/-- Bodies are read by taking parts, and no arguments are left over. It is enough to know this of
bodies with fewer than `n` parts behind their block. -/
def TakesBodies (readBody : String → Parse (List Node)) (n : Nat) : Prop :=
  ∀ {name : String} {rest : List Part} {body : List Node} {s : ParserState}, rest.length < n →
    (readBody name).run ⟨rest, none⟩ = .ok body s →
      (∃ taken, rest = taken ++ s.rest) ∧ s.pending = none

/-- A round that goes on has taken parts, and it leaves no arguments over. -/
theorem GoesOn.exists_taken (h : p.GoesOn readBody awaited s t)
    (hbodies : TakesBodies readBody s.rest.length) :
    (∃ taken, taken ≠ [] ∧ s.rest = taken ++ t.rest) ∧ (s.pending = none → t.pending = none) := by
  cases p.roundFrom awaited s with
  | stops result hrun =>
    exact absurd (fun e => (hrun _ _).symm.trans (h e)) not_forall_eq_error
  | takes node part t' hrest hpending hrun =>
    cases (hrun _ _).symm.trans (h (.unknownFilter ""))
    exact ⟨⟨[part], List.cons_ne_nil _ _, hrest⟩, hpending⟩
  | calls content offset head rest call hrest hhead hrun =>
    have hfails := fun e => (hrun _ _).symm.trans (h e)
    simp only [EStateM.run_bind] at hfails
    cases hbody : (readBody (closingName head.name)).run ⟨rest, none⟩ with
    | error e s' =>
      simp only [hbody] at hfails
      exact absurd hfails not_forall_eq_error
    | ok body s' =>
      simp only [hbody] at hfails
      obtain ⟨⟨taken, htaken⟩, hpending⟩ := hbodies (by rw [hrest]; exact Nat.lt_succ_self _) hbody
      cases hleave : p.leaveBlock.run s' with
      | error e s'' =>
        simp only [hleave] at hfails
        exact absurd hfails not_forall_eq_error
      | ok _ s'' =>
        simp only [hleave] at hfails
        cases hfails (.unknownFilter "")
        obtain ⟨⟨closer, closerOffset, hcloser⟩, hleft⟩ := leaveBlock_eq_ok hleave
        refine ⟨⟨.block content offset :: (taken ++ [.block closer closerOffset]),
          List.cons_ne_nil _ _, ?_⟩, fun _ => hleft.trans hpending⟩
        rw [hrest, htaken, hcloser, List.cons_append, List.append_assoc]
        rfl

/-- A body is that of a block, and it is read from behind the block, whose arguments are read by
then. -/
theorem ReadsBody.exists_head {name : String} (h : p.ReadsBody awaited s name t) :
    ∃ content offset head, s.rest = .block content offset :: t.rest ∧
      BlockHead.read? content = some head ∧ name = closingName head.name ∧ t.pending = none := by
  cases p.roundFrom awaited s with
  | stops result hrun =>
    exact absurd (fun e => (hrun _ _).symm.trans (h (fun _ => e) (pure []))) not_forall_eq_error
  | takes node part t' hrest hpending hrun =>
    -- with other nodes to go on with, the round does not fail as the body does
    have hfails := fun e => (hrun _ (throw (.missingEndTag ""))).symm.trans (h (fun _ => e) _)
    exact absurd hfails not_forall_eq_error
  | calls content offset head rest call hrest hhead hrun =>
    cases (hrun _ _).symm.trans (h .undefinedVariable (pure []))
    exact ⟨content, offset, head, hrest, hhead, rfl, rfl⟩

theorem GoesOn.length_lt (h : p.GoesOn readBody awaited s t)
    (hbodies : TakesBodies readBody s.rest.length) : t.rest.length < s.rest.length := by
  obtain ⟨⟨taken, hne, hrest⟩, -⟩ := h.exists_taken hbodies
  have hpos := List.length_pos_iff.mpr hne
  rw [hrest, List.length_append]
  omega

theorem ReadsBody.length_lt {name : String} (h : p.ReadsBody awaited s name t) :
    t.rest.length < s.rest.length := by
  obtain ⟨content, offset, head, hrest, -⟩ := h.exists_head
  rw [hrest]
  exact Nat.lt_succ_self _

/-- A round is the same if bodies and further nodes are, from where fewer parts are left. -/
theorem run_round_eq_of_lt (hbodies : TakesBodies readBody' s.rest.length)
    (hbody : ∀ name t, t.rest.length < s.rest.length →
      (readBody name).run t = (readBody' name).run t)
    (hmore : ∀ t, t.rest.length < s.rest.length → more.run t = more'.run t) :
    (p.round readBody more awaited).run s = (p.round readBody' more' awaited).run s :=
  run_round_congr (fun name t h => hbody name t h.length_lt)
    fun t h => hmore t (h.length_lt hbodies)

/-! ## Reading is a loop -/

theorem takesBodies_nodesWithin (p : Parser) (n : Nat) :
    TakesBodies (fun name => p.nodesWithin n (some name)) n := by
  intro name rest body s hn h
  have htaken := taken_of_run n hn h
  obtain ⟨taken, hrest, -⟩ := htaken.split
  exact ⟨⟨taken, hrest⟩, htaken.pending⟩

/-- Nodes that were read are the parts in front of those that are left. -/
theorem taken_of_nodes {rest : List Part} {nodes : List Node}
    (h : (p.nodes awaited).run ⟨rest, none⟩ = .ok nodes s) : Taken p.env awaited rest nodes s := by
  rw [Parser.nodes, EStateM.run_bind, EStateM.run_get] at h
  exact taken_of_run _ (Nat.lt_succ_self _) h

theorem takesBodies_nodes (p : Parser) (n : Nat) :
    TakesBodies (fun name => p.nodes (some name)) n := by
  intro name rest body s _ h
  have htaken := taken_of_nodes h
  obtain ⟨taken, hrest, -⟩ := htaken.split
  exact ⟨⟨taken, hrest⟩, htaken.pending⟩

/-- More rounds than there are parts make no difference. -/
theorem run_nodesWithin_eq (n : Nat) : ∀ (m : Nat) (awaited : Option String) (s : ParserState),
    s.rest.length < n → s.rest.length < m →
      (p.nodesWithin n awaited).run s = (p.nodesWithin m awaited).run s := by
  induction n with
  | zero => intro m awaited s hn; omega
  | succ n ih =>
    intro m awaited s hn hm
    cases m with
    | zero => omega
    | succ m =>
      rw [nodesWithin, nodesWithin]
      have hbodies : TakesBodies (fun name => p.nodesWithin m (some name)) s.rest.length :=
        fun hlt h => takesBodies_nodesWithin p m (by omega) h
      exact run_round_eq_of_lt hbodies (fun name t ht => ih m (some name) t (by omega) (by omega))
        fun t ht => ih m awaited t (by omega) (by omega)

theorem run_nodesWithin_eq_nodes {n : Nat} (h : s.rest.length < n) :
    (p.nodesWithin n awaited).run s = (p.nodes awaited).run s := by
  rw [nodes, EStateM.run_bind, EStateM.run_get]
  exact run_nodesWithin_eq n _ _ s h (Nat.lt_succ_self _)

/-- Reading nodes is rounds for ever, as far as the parts go. -/
theorem nodes_eq_round (p : Parser) (awaited : Option String) :
    p.nodes awaited = p.round (fun name => p.nodes (some name)) (p.nodes awaited) awaited := by
  funext s
  have hrun : (p.nodes awaited).run s = (p.round (fun name => p.nodes (some name)) (p.nodes awaited)
      awaited).run s := by
    rw [nodes, EStateM.run_bind, EStateM.run_get]
    dsimp only
    rw [nodesWithin]
    exact run_round_eq_of_lt (takesBodies_nodes p _) (fun name t ht => run_nodesWithin_eq_nodes ht)
      fun t ht => run_nodesWithin_eq_nodes ht
  exact hrun

/-- Nothing else is: the loop says everything about what is read. -/
theorem eq_nodes_of_eq_round {read : Option String → Parse (List Node)}
    (hloop : ∀ awaited, read awaited =
      p.round (fun name => read (some name)) (read awaited) awaited) : read = p.nodes := by
  have hrun : ∀ (n : Nat) (awaited : Option String) (s : ParserState), s.rest.length < n →
      (read awaited).run s = (p.nodes awaited).run s := by
    intro n
    induction n with
    | zero => intro awaited s hn; omega
    | succ n ih =>
      intro awaited s hn
      rw [hloop, nodes_eq_round]
      exact run_round_eq_of_lt (takesBodies_nodes p _)
        (fun name t ht => ih (some name) t (by omega)) fun t ht => ih awaited t (by omega)
  funext awaited s
  exact hrun _ awaited s (Nat.lt_succ_self _)

/-! ## In step -/

/-- What a parser and the tags that drive it rely on. -/
structure InStep (p : Parser) : Prop where
  /-- A round that goes on has taken parts. -/
  forward : ∀ {awaited : Option String} {s t : ParserState},
    p.GoesOn (fun name => p.nodes (some name)) awaited s t →
      ∃ taken, taken ≠ [] ∧ s.rest = taken ++ t.rest
  /-- Reading does not go on for ever, neither in one place nor from body to body. -/
  ends : WellFounded fun t s => p.Enters s t
  /-- So the loop has one meaning: reading nodes is the only way to read a node after another. -/
  loop : ∀ read : Option String → Parse (List Node),
    (∀ awaited, read awaited = p.round (fun name => read (some name)) (read awaited) awaited) ↔
      read = p.nodes
  /-- No arguments are waiting where compiling comes to read nodes. -/
  entered : ∀ {awaited : Option String} {s : ParserState}, p.Reaches awaited s → s.pending = none
  /-- None are where it has read them. -/
  left : ∀ {awaited : Option String} {s t : ParserState} {nodes : List Node},
    p.Reaches awaited s → (p.nodes awaited).run s = .ok nodes t → t.pending = none
  /-- A body is read up to the block that closes the one in front of it, and stops there. -/
  closes : ∀ {awaited : Option String} {s t u : ParserState} {name : String} {body : List Node},
    p.ReadsBody awaited s name t → (p.nodes (some name)).run t = .ok body u →
      ∃ opener offset head closer closerOffset after closerHead,
        s.rest = .block opener offset :: t.rest ∧ BlockHead.read? opener = some head ∧
        u.rest = .block closer closerOffset :: after ∧
        BlockHead.read? closer = some closerHead ∧
        closerHead.name = name ∧ name = closingName head.name
  /-- No fault is that of a tag that asks for something out of order. -/
  faults : ∀ {line column : Nat} {fault : SourceFault},
    p.env.compile p.source = .error (.malformed line column fault) →
      fault.message ∉ protocolMessages

theorem Enters.length_lt {entry next : Option String × ParserState} (h : p.Enters entry next) :
    next.2.rest.length < entry.2.rest.length := by
  cases h with
  | goesOn h => exact h.length_lt (takesBodies_nodes p _)
  | body h => exact h.length_lt

/-- The induction is on how the state was reached. -/
theorem Reaches.pending (h : p.Reaches awaited s) : s.pending = none := by
  unfold Reaches at h
  generalize hentry : (awaited, s) = entry at h
  induction h generalizing awaited s with
  | refl =>
    cases hentry
    rfl
  | tail _ henters ih =>
    subst hentry
    cases henters with
    | goesOn h => exact (h.exists_taken (takesBodies_nodes p _)).2 (ih rfl)
    | body h =>
      obtain ⟨_, _, _, _, _, _, hpending⟩ := h.exists_head
      exact hpending

/-- The nodes that are read where compiling comes to are the parts in front of those left. -/
theorem Reaches.taken {nodes : List Node} (h : p.Reaches awaited s)
    (hrun : (p.nodes awaited).run s = .ok nodes t) : Taken p.env awaited s.rest nodes t := by
  have hpending := h.pending
  obtain ⟨rest, pending⟩ := s
  subst hpending
  exact taken_of_nodes hrun

/-- In every environment and for every source, the parser and the tags stay in step. -/
theorem inStep (p : Parser) : p.InStep where
  forward h := (h.exists_taken (takesBodies_nodes p _)).1
  ends := Subrelation.wf (fun h => Enters.length_lt h)
    (measure fun entry : Option String × ParserState => entry.2.rest.length).wf
  loop read := by
    constructor
    · exact eq_nodes_of_eq_round
    · rintro rfl
      exact nodes_eq_round p
  entered := Reaches.pending
  left h hrun := (h.taken hrun).pending
  closes := by
    intro awaited s t u name body hreads hrun
    obtain ⟨opener, offset, head, hrest, hhead, hname, hpending⟩ := hreads.exists_head
    obtain ⟨rest, pending⟩ := t
    subst hpending
    obtain ⟨closer, closerOffset, after, closerHead, hcloser, hcloserHead, hcloses⟩ :=
      (taken_of_nodes hrun).stops
    exact ⟨opener, offset, head, closer, closerOffset, after, closerHead, hrest, hhead, hcloser,
      hcloserHead, hcloses, hname⟩
  faults h := by
    rcases reports_of_compile h with ⟨name, hmissing⟩ | ⟨part, -, hblames⟩
    · cases hmissing
    · exact hblames.message_notMem

/-- The parser of a template with a box. -/
def boxParser : Parser :=
  ⟨boxEnvironment, boxSource⟩

/-- What is left in front of the body of the box. -/
def boxBodyState : ParserState :=
  ⟨[.text "it's ", .output "x" 39] ++ [.block "endbox" 44], none⟩

/-- Compiling comes to the body of the box. -/
theorem reaches_boxBodyState :
    ∃ s, boxParser.Reaches none s ∧ boxParser.ReadsBody none s "endbox" boxBodyState := by
  have hparts : Part.ofSource boxSource =
      .text "<p>" :: .output "x|escape|upper" 5 :: .block "box t=x" 23 :: boxBodyState.rest := by
    decide +kernel
  have htext : boxParser.GoesOn (fun name => boxParser.nodes (some name)) none boxParser.start
      ⟨.output "x|escape|upper" 5 :: .block "box t=x" 23 :: boxBodyState.rest, none⟩ := by
    intro e
    rw [start, boxParser, hparts]
    exact run_round_text
  have houtput : boxParser.GoesOn (fun name => boxParser.nodes (some name)) none
      ⟨.output "x|escape|upper" 5 :: .block "box t=x" 23 :: boxBodyState.rest, none⟩
      ⟨.block "box t=x" 23 :: boxBodyState.rest, none⟩ := fun e => run_round_output
  refine ⟨_, (Relation.ReflTransGen.refl.tail (.goesOn htext)).tail (.goesOn houtput), ?_⟩
  intro e more
  have hhead : BlockHead.read? "box t=x" = some ⟨"box", " t=x", 3⟩ := by decide
  rw [run_round_block, hhead]
  rfl

/-- The body is read from there, to the block that closes the box. -/
theorem inStep_boxParser :
    ∃ s t body, boxParser.Reaches none s ∧ boxParser.ReadsBody none s "endbox" boxBodyState ∧
      (boxParser.nodes (some "endbox")).run boxBodyState = .ok body t ∧
      s.pending = none ∧ t.pending = none ∧ ∃ opener offset head,
        s.rest = .block opener offset :: boxBodyState.rest ∧
        BlockHead.read? opener = some head ∧ "endbox" = closingName head.name := by
  have hinner : Linear boxEnvironment
      [.text "it's ", .output (.node ⟨"x", lineSpan 0 1⟩ [] .path [] (lineSpan 0 1))]
      [.text "it's ", .output "x" 39] :=
    .text (.output rfl .nil)
  have hcloser : BlockHead.read? "endbox" = some ⟨"endbox", "", 6⟩ := by decide
  have havoids : Avoids (some "endbox")
      [.text "it's ", .output (.node ⟨"x", lineSpan 0 1⟩ [] .path [] (lineSpan 0 1))] := by
    intro name _ node hnode
    rcases List.mem_cons.mp hnode with rfl | hnode
    · exact id
    · cases List.mem_singleton.mp hnode
      exact id
  have hrun := run_of_linear (p := boxParser) hinner (some "endbox") [.block "endbox" 44] 4
    ⟨_, _, _, _, rfl, hcloser, rfl⟩ havoids (by decide)
  have hread := (run_nodesWithin_eq_nodes (s := boxBodyState) (by decide)).symm.trans hrun
  obtain ⟨s, hreached, hreads⟩ := reaches_boxBodyState
  have hbody := hreached.tail (.body hreads)
  obtain ⟨opener, offset, head, _, _, _, _, hrest, hhead, -, -, -, hname⟩ :=
    (inStep boxParser).closes hreads hread
  exact ⟨s, _, _, hreached, hreads, hread, (inStep boxParser).entered hreached,
    (inStep boxParser).left hbody hread, opener, offset, head, hrest, hhead, hname⟩

end TagTemplate.Template.Parser
