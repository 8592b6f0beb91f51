import TagTemplate.Proofs.Template.Linear

/-!
# What compiling fails with

When a source does not compile, either a body in it is not closed or one of its parts is to blame:
an output that cannot be read, or a block that has no name, no tag of that name, or arguments that
cannot be read. `Parser.Blames` lists these.

> `reports_of_compile`: every error of compiling is one of these.

The faults that a parser has for tags which drive it out of order are not among them, and no report
about unreadable text is in the same words (`Parser.Blames.message_notMem`).
-/

namespace TagTemplate

/-! ## The words of reports -/

/-- The first alternative stands first. -/
theorem Rule.exists_alternatives_cons (name : String) (names : List String) :
    ∃ more, Rule.alternatives (name :: names) = name ++ more := by
  rcases names with _ | ⟨second, _ | ⟨third, rest⟩⟩
  · exact ⟨"", String.append_empty.symm⟩
  · refine ⟨" or " ++ second, ?_⟩
    rw [Rule.alternatives, String.append_assoc]
  · have hmany : Rule.alternatives (name :: second :: third :: rest) =
        ", ".intercalate (name :: second :: (third :: rest).dropLast) ++ ", or " ++
          ((third :: rest).getLast?.getD "") := rfl
    rw [hmany, String.intercalate_cons_cons]
    simp only [String.append_assoc]
    exact ⟨_, rfl⟩

/-- A report names a rule right away, unless it names none. -/
theorem Rule.exists_expectation (rules : List Rule) :
    Rule.expectation rules = "expected " ∨
      ∃ (r : Rule) (more : String), Rule.expectation rules = "expected " ++ (r.title ++ more) := by
  rw [Rule.expectation]
  cases Rule.all.filter (rules.contains ·) with
  | nil => exact Or.inl rfl
  | cons r rest =>
    obtain ⟨more, hmore⟩ := exists_alternatives_cons r.title (rest.map Rule.title)
    exact Or.inr ⟨r, more, by rw [List.map_cons, hmore]⟩

/-- What a parser says to a tag that asks it for something out of order. -/
def protocolMessages : List String :=
  ["expected a block", "expected tag arguments", "expected end of block"]

/-- No rule has a title with which one of these messages goes on. -/
theorem Rule.expectation_notMem (rules : List Rule) :
    Rule.expectation rules ∉ protocolMessages := by
  have htitle : ∀ (r : Rule) (more : String) (words : String), ¬ r.title.toList <+: words.toList →
      Rule.expectation rules = "expected " ++ (r.title ++ more) →
        Rule.expectation rules ≠ "expected " ++ words := by
    intro r more words hprefix hreport heq
    rw [hreport, String.append_right_inj] at heq
    exact hprefix ⟨more.toList, by rw [← heq, String.toList_append]⟩
  intro hmem
  simp only [protocolMessages, List.mem_cons, List.not_mem_nil, or_false] at hmem
  rcases Rule.exists_expectation rules with hnone | ⟨r, more, hreport⟩
  · rw [hnone] at hmem
    revert hmem
    decide
  · rcases hmem with h | h | h
    · exact htitle r more "a block" (by cases r <;> decide) hreport h
    · exact htitle r more "tag arguments" (by cases r <;> decide) hreport h
    · exact htitle r more "end of block" (by cases r <;> decide) hreport h

namespace Template

namespace Parser

/-! ## Parts at fault -/

/-- The part is to blame for the error. -/
inductive Blames (p : Parser) : Part → TemplateError → Prop
  | output {content : String} {offset : Nat} {e : ReadError}
      (hread : Expr.read content = .error e) :
      p.Blames (.output content offset) (p.readFault offset e)
  | noName {content : String} {offset : Nat} (hhead : BlockHead.read? content = none) :
      p.Blames (.block content offset) (p.faultAt offset .noTagName)
  | noTag {content : String} {offset : Nat} {head : BlockHead} {e : TemplateError}
      (hhead : BlockHead.read? content = some head) (htag : p.tagOf head.name offset = .error e) :
      p.Blames (.block content offset) e
  | arguments {content : String} {offset : Nat} {head : BlockHead} {e : ReadError}
      (hhead : BlockHead.read? content = some head)
      (hargs : Argument.readList head.args = .error e) :
      p.Blames (.block content offset) (p.readFault (offset + head.offset) e)

/-- The error is that a body is not closed, or one of the parts is to blame for it. -/
def Reports (p : Parser) (parts : List Part) (e : TemplateError) : Prop :=
  (∃ name, e = .missingEndTag name) ∨ ∃ part ∈ parts, p.Blames part e

variable {p : Parser} {parts : List Part} {e : TemplateError}

theorem Reports.append (h : p.Reports parts e) (front : List Part) :
    p.Reports (front ++ parts) e :=
  h.imp_right fun ⟨part, hpart, hblames⟩ => ⟨part, List.mem_append_right _ hpart, hblames⟩

theorem Blames.reports {part : Part} (h : p.Blames part e) (rest : List Part) :
    p.Reports (part :: rest) e :=
  Or.inr ⟨part, List.mem_cons_self .., h⟩

/-! ## What fails

A round that fails has a part to blame for it, or it hands on an error of the body that it reads or
of the nodes that it goes on with. -/

section Round

variable {readBody : String → Parse (List Node)} {more : Parse (List Node)}
  {awaited : Option String} {content : String} {offset : Nat} {rest : List Part}
  {pending : Option PendingArguments} {s : ParserState}

/-- An invocation fails with its arguments, or with its body. A body that was read is followed by
its closer, so that the invocation does not fail after it. -/
theorem parse_eq_error {d : TagDefinition} {head : BlockHead}
    (hhead : BlockHead.read? content = some head)
    (hstops : ∀ {body s}, (readBody (closingName head.name)).run ⟨rest, none⟩ = .ok body s →
      StopsAt (some (closingName head.name)) s.rest)
    (h : (d.parse (p.hostWith readBody)).run ⟨.block content offset :: rest, pending⟩ =
      .error e s) :
    p.Blames (.block content offset) e ∨
      (readBody (closingName head.name)).run ⟨rest, none⟩ = .error e s := by
  rw [run_parse d readBody hhead] at h
  cases hargs : Argument.readList head.args with
  | error e =>
    rw [hargs] at h
    cases h
    exact Or.inl (.arguments hhead hargs)
  | ok args =>
    rw [hargs] at h
    dsimp only at h
    cases hblock : d.isBlock with
    | false =>
      rw [hblock] at h
      cases h
    | true =>
      rw [hblock, if_pos rfl] at h
      cases hbody : (readBody (closingName head.name)).run ⟨rest, none⟩ with
      | error e s =>
        rw [hbody] at h
        cases h
        exact Or.inr rfl
      | ok body s' =>
        obtain ⟨closer, closerOffset, after, _, hrest, -, -⟩ := hstops hbody
        rw [hbody] at h
        dsimp only at h
        rw [hrest] at h
        cases h

theorem round_text_eq_error
    (h : (p.round readBody more awaited).run ⟨.text content :: rest, pending⟩ = .error e s) :
    more.run ⟨rest, pending⟩ = .error e s := by
  rw [run_round_text] at h
  cases hmore : more.run ⟨rest, pending⟩ with
  | ok later s' =>
    rw [hmore] at h
    cases h
  | error e' s' =>
    rw [hmore] at h
    cases h
    rfl

theorem round_output_eq_error
    (h : (p.round readBody more awaited).run ⟨.output content offset :: rest, pending⟩ =
      .error e s) :
    p.Blames (.output content offset) e ∨ more.run ⟨rest, pending⟩ = .error e s := by
  rw [run_round_output] at h
  cases hread : Expr.read content with
  | error e' =>
    rw [hread] at h
    cases h
    exact Or.inl (.output hread)
  | ok value =>
    rw [hread] at h
    dsimp only at h
    cases hmore : more.run ⟨rest, pending⟩ with
    | ok later s' =>
      rw [hmore] at h
      cases h
    | error e' s' =>
      rw [hmore] at h
      cases h
      exact Or.inr rfl

theorem round_block_eq_error
    (h : (p.round readBody more awaited).run ⟨.block content offset :: rest, pending⟩ =
      .error e s) :
    p.Blames (.block content offset) e ∨
      ∃ (head : BlockHead) (tag : Tag), BlockHead.read? content = some head ∧
        ((tag.definition.parse (p.hostWith readBody)).run
            ⟨.block content offset :: rest, pending⟩ = .error e s ∨
          ∃ invocation s', (tag.definition.parse (p.hostWith readBody)).run
            ⟨.block content offset :: rest, pending⟩ = .ok invocation s' ∧
            more.run s' = .error e s) := by
  rw [run_round_block] at h
  split at h
  next hhead =>
    cases h
    exact Or.inl (.noName hhead)
  next head hhead =>
    split at h
    next => cases h
    next =>
      split at h
      next e' htag =>
        cases h
        exact Or.inl (.noTag hhead htag)
      next tag htag =>
        refine Or.inr ⟨head, tag, hhead, ?_⟩
        split at h
        next e' s' hparse =>
          cases h
          exact Or.inl hparse
        next invocation s' hparse =>
          split at h
          next => cases h
          next e' s'' hmore =>
            cases h
            exact Or.inr ⟨invocation, s', hparse, hmore⟩

end Round

/-- The induction is on the rounds. What a run reports of the parts behind a node, or in a body, it
reports of all. -/
theorem reports_of_run (n : Nat) :
    ∀ {awaited : Option String} {parts : List Part} {e : TemplateError} {s : ParserState},
      parts.length < n → (p.nodesWithin n awaited).run ⟨parts, none⟩ = .error e s →
        p.Reports parts e := by
  induction n with
  | zero => intro awaited parts e s hn h; omega
  | succ n ih =>
    intro awaited parts e s hn h
    rw [nodesWithin] at h
    rcases parts with _ | ⟨content | ⟨content, offset⟩ | ⟨content, offset⟩, rest⟩
    · rw [run_round_nil] at h
      cases awaited with
      | none => cases h
      | some name =>
        cases h
        exact Or.inl ⟨name, rfl⟩
    · rw [List.length_cons] at hn
      exact (ih (by omega) (round_text_eq_error h)).append [.text content]
    · rw [List.length_cons] at hn
      rcases round_output_eq_error h with hblames | hmore
      · exact hblames.reports rest
      · exact (ih (by omega) hmore).append [.output content offset]
    · rw [List.length_cons] at hn
      rcases round_block_eq_error h with hblames | ⟨head, tag, hhead, hparse |
        ⟨invocation, s', hparse, hmore⟩⟩
      · exact hblames.reports rest
      · have hstops : ∀ {body s}, (p.nodesWithin n (some (closingName head.name))).run
            ⟨rest, none⟩ = .ok body s → StopsAt (some (closingName head.name)) s.rest :=
          fun hbody => (taken_of_run n (by omega) hbody).stops
        rcases parse_eq_error hhead hstops hparse with hblames | hbody
        · exact hblames.reports rest
        · exact (ih (by omega) hbody).append [.block content offset]
      · obtain ⟨args, -, ⟨-, -, rfl⟩ | ⟨-, body, closer, closerOffset, after, pending, hbody, -,
          rfl⟩⟩ := parse_eq_ok hhead hparse
        · exact (ih (by omega) hmore).append [.block content offset]
        · -- the parts behind the closer are the last of those behind the opening block
          have hinner := taken_of_run n (by omega) hbody
          obtain ⟨inner, rfl, -⟩ := hinner.split
          have hpending : pending = none := hinner.pending
          subst hpending
          rw [List.length_append, List.length_cons] at hn
          have hreports := (ih (by omega) hmore).append
            (.block content offset :: (inner ++ [.block closer closerOffset]))
          rwa [List.cons_append, List.append_assoc] at hreports

end Parser

/-- Every error of compiling is a body that is not closed, or a part of the source is to blame for
it. -/
theorem reports_of_compile {env : Environment} {source : String} {e : TemplateError}
    (h : env.compile source = .error e) :
    Parser.Reports ⟨env, source⟩ (Part.ofSource source) e := by
  unfold Environment.compile at h
  dsimp only at h
  split at h
  next => cases h
  next e s hrun =>
    cases h
    rw [Parser.nodes, EStateM.run_bind, EStateM.run_get] at hrun
    exact Parser.reports_of_run _ (Nat.lt_succ_self _) hrun

/-- No part is blamed in the words that are meant for tags. -/
theorem Parser.Blames.message_notMem {p : Parser} {part : Part} {line column : Nat}
    {fault : SourceFault} (h : p.Blames part (.malformed line column fault)) :
    fault.message ∉ protocolMessages := by
  have hread : ∀ e : ReadError, (SourceFault.ofRead e).message ∉ protocolMessages := by
    intro e
    cases e with
    | expected offset rules => exact Rule.expectation_notMem rules
    | emptyKey => decide
  generalize herror : TemplateError.malformed line column fault = error at h
  cases h with
  | output => cases herror; exact hread _
  | noName => cases herror; decide
  | arguments => cases herror; exact hread _
  | noTag hhead htag =>
    rw [← herror, tagOf] at htag
    split at htag
    next => cases htag
    next =>
      dsimp only at htag
      split at htag <;> cases htag

end Template

end TagTemplate
