import TagTemplate.Template.Compile

/-!
# The steps of the compiler, as equations

The parser of a template is driven by the tags it meets: a definition asks for a name, for
arguments, for a body, and the parser answers from what is left of the parts. Here each of these
steps is an equation about `run`, with its failures, and from them follow the equations that
everything about compiling rests on:

* `run_parse`: what one invocation does at a block, from its head to the end of its body;
* `run_round_text`, `run_round_output`, `run_round_block`: what one round does, by the next part,
  whatever reads bodies and further nodes.

No later proof opens the parser itself. Of the environment it only sees the tags
(`compile_eq_of_tags`).
-/

namespace TagTemplate.Template.Parser

variable {p : Parser} {rest : List Part} {pending : Option PendingArguments}

theorem run_nextToken {content : String} {offset : Nat} {head : BlockHead}
    (hhead : BlockHead.read? content = some head) :
    p.nextToken.run ⟨.block content offset :: rest, pending⟩
      = .ok head.name ⟨.block content offset :: rest, some ⟨head.args, offset + head.offset⟩⟩ := by
  simp only [nextToken, EStateM.run_bind, EStateM.run_get, hhead]
  rfl

theorem run_readArguments {text : String} {offset : Nat} :
    p.readArguments.run ⟨rest, some ⟨text, offset⟩⟩
      = match Argument.readList text with
        | .ok args => .ok args ⟨rest, none⟩
        | .error e => .error (p.readFault offset e) ⟨rest, none⟩ := by
  simp only [readArguments, EStateM.run_bind, EStateM.run_get, EStateM.run_set]
  cases Argument.readList text <;> rfl

theorem run_leaveBlock {s : ParserState} :
    p.leaveBlock.run s
      = match s.rest with
        | .block _ _ :: after => .ok () { s with rest := after }
        | _ => .error (p.unexpected s .noBlockEnd) s := by
  rcases s with ⟨_ | ⟨_ | _ | _, after⟩, pending⟩ <;> rfl

/-- One invocation, at the block that opens it. The body of a block tag is whatever `readBody`
makes of the parts after the block, and must end at a block. -/
theorem run_parse (d : TagDefinition) (readBody : String → Parse (List Node)) {content : String}
    {offset : Nat} {head : BlockHead} (hhead : BlockHead.read? content = some head) :
    (d.parse (p.hostWith readBody)).run ⟨.block content offset :: rest, pending⟩
      = match Argument.readList head.args with
        | .error e =>
          .error (p.readFault (offset + head.offset) e) ⟨.block content offset :: rest, none⟩
        | .ok args =>
          if d.isBlock then
            match (readBody (closingName head.name)).run ⟨rest, none⟩ with
            | .error e s => .error e s
            | .ok body s =>
              match s.rest with
              | .block _ _ :: after => .ok ⟨head.name, args, some body⟩ { s with rest := after }
              | _ => .error (p.unexpected s .noBlockEnd) s
          else .ok ⟨head.name, args, none⟩ ⟨rest, none⟩ := by
  simp only [TagDefinition.parse, hostWith, EStateM.run_bind, run_nextToken hhead,
    run_readArguments]
  cases Argument.readList head.args with
  | error e => rfl
  | ok args =>
    simp only [run_leaveBlock]
    cases d.isBlock with
    | false => rfl
    | true =>
      simp only [if_true, EStateM.run_bind]
      cases (readBody (closingName head.name)).run ⟨rest, none⟩ with
      | error e s => rfl
      | ok body s =>
        simp only [run_leaveBlock]
        rcases s with ⟨_ | ⟨_ | _ | _, after⟩, pending⟩ <;> rfl

/-! ## One round -/

variable {readBody : String → Parse (List Node)} {more : Parse (List Node)}
  {awaited : Option String} {content : String} {offset : Nat}

theorem run_round_nil :
    (p.round readBody more awaited).run ⟨[], pending⟩ = (atEnd awaited).run ⟨[], pending⟩ := by
  rw [round, EStateM.run_bind]
  rfl

theorem run_round_text :
    (p.round readBody more awaited).run ⟨.text content :: rest, pending⟩
      = match more.run ⟨rest, pending⟩ with
        | .ok nodes s => .ok (.text content :: nodes) s
        | .error e s => .error e s := by
  rw [round, EStateM.run_bind, EStateM.run_get]
  simp only [EStateM.run_bind, EStateM.run_set]
  cases more.run ⟨rest, pending⟩ <;> rfl

theorem run_round_output :
    (p.round readBody more awaited).run ⟨.output content offset :: rest, pending⟩
      = match Expr.read content with
        | .error e => .error (p.readFault offset e) ⟨.output content offset :: rest, pending⟩
        | .ok value =>
          match more.run ⟨rest, pending⟩ with
          | .ok nodes s => .ok (.output value :: nodes) s
          | .error e s => .error e s := by
  rw [round, EStateM.run_bind, EStateM.run_get]
  dsimp only
  cases Expr.read content with
  | error e => rfl
  | ok value =>
    simp only [EStateM.run_bind, EStateM.run_set]
    cases more.run ⟨rest, pending⟩ <;> rfl

theorem run_round_block :
    (p.round readBody more awaited).run ⟨.block content offset :: rest, pending⟩
      = match BlockHead.read? content with
        | none => .error (p.faultAt offset .noTagName) ⟨.block content offset :: rest, pending⟩
        | some head =>
          if awaited = some head.name then .ok [] ⟨.block content offset :: rest, pending⟩
          else match p.tagOf head.name offset with
            | .error e => .error e ⟨.block content offset :: rest, pending⟩
            | .ok tag =>
              match (tag.definition.parse (p.hostWith readBody)).run
                  ⟨.block content offset :: rest, pending⟩ with
              | .error e s => .error e s
              | .ok invocation s =>
                match more.run s with
                | .ok nodes s => .ok (.call tag invocation :: nodes) s
                | .error e s => .error e s := by
  rw [round, EStateM.run_bind, EStateM.run_get]
  dsimp only
  cases BlockHead.read? content with
  | none => rfl
  | some head =>
    by_cases hawaited : awaited = some head.name
    · simp only [if_pos hawaited]
      rfl
    · simp only [if_neg hawaited]
      cases p.tagOf head.name offset with
      | error e => rfl
      | ok tag =>
        simp only [EStateM.run_bind]
        cases (tag.definition.parse (p.hostWith readBody)).run
          ⟨.block content offset :: rest, pending⟩ with
        | error e s => rfl
        | ok invocation s =>
          dsimp only
          cases more.run s <;> rfl

/-! ## What succeeds -/

theorem tagOf_eq_ok_iff {name : String} {tag : Tag} :
    p.tagOf name offset = .ok tag ↔ p.env.tag? name = some tag := by
  unfold tagOf
  cases p.env.tag? name with
  | some other => simp
  | none =>
    constructor
    · intro h
      dsimp only at h
      split at h <;> cases h
    · intro h
      cases h

/-- A successful invocation has read its arguments; a block tag has also read a body up to some
block, which is taken. -/
theorem parse_eq_ok {d : TagDefinition} {head : BlockHead} {s : ParserState}
    {invocation : Invocation (List Argument) (List Node)}
    (hhead : BlockHead.read? content = some head)
    (h : (d.parse (p.hostWith readBody)).run ⟨.block content offset :: rest, pending⟩
      = .ok invocation s) :
    ∃ args, Argument.readList head.args = .ok args ∧
      ((d.isBlock = false ∧ invocation = ⟨head.name, args, none⟩ ∧ s = ⟨rest, none⟩) ∨
      (d.isBlock = true ∧ ∃ body closer closerOffset after pending,
        (readBody (closingName head.name)).run ⟨rest, none⟩
          = .ok body ⟨.block closer closerOffset :: after, pending⟩ ∧
        invocation = ⟨head.name, args, some body⟩ ∧ s = ⟨after, pending⟩)) := by
  rw [run_parse d readBody hhead] at h
  cases hargs : Argument.readList head.args with
  | error e => rw [hargs] at h; cases h
  | ok args =>
    rw [hargs] at h
    refine ⟨args, rfl, ?_⟩
    cases hblock : d.isBlock with
    | false =>
      rw [hblock] at h
      cases h
      exact Or.inl ⟨rfl, rfl, rfl⟩
    | true =>
      rw [hblock] at h
      dsimp only at h
      rw [if_pos rfl] at h
      cases hbody : (readBody (closingName head.name)).run ⟨rest, none⟩ with
      | error e s => rw [hbody] at h; cases h
      | ok body s' =>
        rw [hbody] at h
        obtain ⟨parts, pending⟩ := s'
        dsimp only at h
        split at h
        next closer closerOffset after =>
          cases h
          exact Or.inr ⟨rfl, body, closer, closerOffset, after, pending, rfl, rfl, rfl⟩
        next => cases h

/-! A successful round has stopped at the end or at the awaited block, or has read one node. -/

section Round

variable {nodes : List Node} {s : ParserState}

theorem round_nil_eq_ok (h : (p.round readBody more awaited).run ⟨[], pending⟩ = .ok nodes s) :
    awaited = none ∧ nodes = [] ∧ s = ⟨[], pending⟩ := by
  rw [run_round_nil] at h
  cases awaited with
  | none =>
    cases h
    exact ⟨rfl, rfl, rfl⟩
  | some name => cases h

theorem round_text_eq_ok
    (h : (p.round readBody more awaited).run ⟨.text content :: rest, pending⟩ = .ok nodes s) :
    ∃ later, nodes = .text content :: later ∧ more.run ⟨rest, pending⟩ = .ok later s := by
  rw [run_round_text] at h
  cases hmore : more.run ⟨rest, pending⟩ with
  | error e s' =>
    rw [hmore] at h
    cases h
  | ok later s' =>
    rw [hmore] at h
    cases h
    exact ⟨later, rfl, rfl⟩

theorem round_output_eq_ok
    (h : (p.round readBody more awaited).run ⟨.output content offset :: rest, pending⟩
      = .ok nodes s) :
    ∃ value later, Expr.read content = .ok value ∧ nodes = .output value :: later ∧
      more.run ⟨rest, pending⟩ = .ok later s := by
  rw [run_round_output] at h
  cases hread : Expr.read content with
  | error e =>
    rw [hread] at h
    cases h
  | ok value =>
    rw [hread] at h
    dsimp only at h
    cases hmore : more.run ⟨rest, pending⟩ with
    | error e s' =>
      rw [hmore] at h
      cases h
    | ok later s' =>
      rw [hmore] at h
      cases h
      exact ⟨value, later, rfl, rfl, rfl⟩

/-- A block with the awaited name stops the round, even if there is a tag of that name. -/
theorem round_block_eq_ok
    (h : (p.round readBody more awaited).run ⟨.block content offset :: rest, pending⟩
      = .ok nodes s) :
    ∃ head, BlockHead.read? content = some head ∧
      ((awaited = some head.name ∧ nodes = [] ∧ s = ⟨.block content offset :: rest, pending⟩) ∨
      (awaited ≠ some head.name ∧ ∃ tag invocation s' later, p.env.tag? head.name = some tag ∧
        (tag.definition.parse (p.hostWith readBody)).run ⟨.block content offset :: rest, pending⟩
          = .ok invocation s' ∧
        nodes = .call tag invocation :: later ∧ more.run s' = .ok later s)) := by
  rw [run_round_block] at h
  split at h
  next => cases h
  next head hhead =>
    refine ⟨head, hhead, ?_⟩
    by_cases hawaited : awaited = some head.name
    · rw [if_pos hawaited] at h
      cases h
      exact Or.inl ⟨hawaited, rfl, rfl⟩
    · rw [if_neg hawaited] at h
      refine Or.inr ⟨hawaited, ?_⟩
      split at h
      next => cases h
      next tag htag =>
        split at h
        next => cases h
        next invocation s' hparse =>
          split at h
          next later s'' hmore =>
            cases h
            exact ⟨tag, invocation, s', later, tagOf_eq_ok_iff.mp htag, hparse, rfl, hmore⟩
          next => cases h

end Round

/-! ## What compiling sees of an environment -/

variable {env env' : Environment} (htags : env'.tags = env.tags) (source : String)
include htags

/-- A round looks tags up, and asks nothing else of the environment. -/
theorem round_eq_of_tags (readBody : String → Parse (List Node)) (more : Parse (List Node))
    (awaited : Option String) :
    round ⟨env', source⟩ readBody more awaited = round ⟨env, source⟩ readBody more awaited := by
  have htag : ∀ name, env'.tag? name = env.tag? name := by
    intro name
    unfold Environment.tag?
    rw [htags]
  unfold round hostWith nextToken readArguments leaveBlock tagOf
  simp only [htag]
  rfl

theorem nodesWithin_eq_of_tags (n : Nat) :
    ∀ awaited, nodesWithin ⟨env', source⟩ n awaited = nodesWithin ⟨env, source⟩ n awaited := by
  induction n with
  | zero => exact fun _ => rfl
  | succ n ih =>
    intro awaited
    unfold nodesWithin
    rw [round_eq_of_tags htags, ih awaited, funext fun name => ih (some name)]

/-- Environments with the same tags compile a source to the same nodes, or fail alike. -/
theorem compile_eq_of_tags : env'.compile source = env.compile source := by
  have hnodes : nodes ⟨env', source⟩ none = nodes ⟨env, source⟩ none := by
    unfold nodes
    simp only [nodesWithin_eq_of_tags htags]
  unfold Environment.compile
  dsimp only
  rw [hnodes]
  rfl

end TagTemplate.Template.Parser
