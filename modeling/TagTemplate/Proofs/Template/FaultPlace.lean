import TagTemplate.Proofs.Expression.Report
import TagTemplate.Proofs.Template.Blame
import TagTemplate.Proofs.Template.BlockHead
import TagTemplate.Proofs.Template.Lossless
import TagTemplate.Proofs.Template.Markup

/-!
# Where compiling fails

An error of compiling that has a line and a column has those of a place in the source, and this place
is in the part that is to blame (`Part.Covers`): in the content of an output or of a block, at its end
perhaps, and never inside a character. It is put together from the offset of the part, from the size of
the name in front of arguments, and from the offset that the report on unreadable text gives, if it
gives one. Each of these is the size of a text, and the texts stand one behind the other in the source.

> `place_of_compile`: faults in the source are at a place in a marked part, and a name that has no tag
> is reported with the place at which its block begins.
-/

namespace TagTemplate.Template

/-- The offset is that of a place in the content of the part, at its end perhaps, where the part
stands in the source. -/
def Part.Covers (source : List Char) (part : Part) (offset : Nat) : Prop :=
  ∃ front inside rest back, source = front ++ ((inside ++ rest) ++ back) ∧
    part.offset? = some (byteSize front) ∧ part.content.toList = inside ++ rest ∧
      offset = byteSize (front ++ inside)

variable {source : String} {part : Part} {offset : Nat} {inside rest : List Char}

/-- A place in the content of a part of the source is a place in the source. -/
theorem Part.covers_of_mem (hpart : part ∈ Part.ofSource source) (hoffset : part.offset? = some offset)
    (hcontent : part.content.toList = inside ++ rest) :
    part.Covers source.toList (offset + byteSize inside) := by
  obtain ⟨front, back, hsource, hsize⟩ :=
    (lists_ofPieces [] (pieces source.toList)).exists_front hpart hoffset
  rw [List.nil_append, flatMap_source_pieces, hcontent] at hsource
  rw [utf8ByteSize_ofList] at hsize
  subst hsize
  exact ⟨front, inside, rest, back, hsource, hoffset, hcontent, (byteSize_append ..).symm⟩

/-- The beginning of its content is a place in it. -/
theorem Part.covers_offset (hpart : part ∈ Part.ofSource source) (hoffset : part.offset? = some offset) :
    part.Covers source.toList offset := by
  have hcontent : part.content.toList = [] ++ part.content.toList := rfl
  exact Part.covers_of_mem hpart hoffset hcontent

namespace Parser

variable {p : Parser} {e : TemplateError}

/-- What a part is blamed for is at a place in it. A name without a tag is at its beginning. -/
theorem Blames.covers (h : p.Blames part e) (hpart : part ∈ Part.ofSource p.source) :
    (∃ o fault, e = p.faultAt o fault ∧ part.Covers p.source.toList o) ∨
      ∃ content offset head, part = .block content offset ∧
        BlockHead.read? content = some head ∧ p.tagOf head.name offset = .error e := by
  cases h with
  | @output content offset err hread =>
    obtain ⟨inside, rest, hcontent, hsize⟩ := Expr.exists_front_of_read hread
    have hcovers := Part.covers_of_mem hpart rfl hcontent
    rw [← hsize] at hcovers
    exact Or.inl ⟨_, _, rfl, hcovers⟩
  | noName hhead => exact Or.inl ⟨_, _, rfl, Part.covers_offset hpart rfl⟩
  | @noTag content offset head e hhead htag => exact Or.inr ⟨content, offset, head, rfl, hhead, htag⟩
  | @arguments content offset head err hhead hargs =>
    obtain ⟨blanks, hcontent, hname, -, -⟩ := BlockHead.source_of_read? hhead
    obtain ⟨inside, rest, hsplit, hsize⟩ := Argument.exists_front_of_readList hargs
    -- the place in the arguments is behind the blanks and the name
    have hcontent : content.toList = (blanks ++ (head.name.toList ++ inside)) ++ rest := by
      rw [hcontent, hsplit]
      simp only [List.append_assoc]
    have hcovers := Part.covers_of_mem hpart rfl hcontent
    have hall : offset + byteSize (blanks ++ (head.name.toList ++ inside)) =
        offset + head.offset + err.offset?.getD 0 := by
      rw [hname, hsize, byteSize_append, byteSize_append, byteSize_append]
      omega
    rw [hall] at hcovers
    exact Or.inl ⟨_, _, rfl, hcovers⟩

/-- A name without a tag is reported with the name and the place of its block. -/
theorem tagOf_eq_error {name : String} (h : p.tagOf name offset = .error e) :
    e = .unexpectedEndTag name (positionAt p.source.toList offset).line
        (positionAt p.source.toList offset).column ∨
      e = .unknownTag name (positionAt p.source.toList offset).line
        (positionAt p.source.toList offset).column := by
  unfold tagOf at h
  split at h
  next => cases h
  next =>
    dsimp only at h
    split at h
    · cases h
      exact Or.inl rfl
    · cases h
      exact Or.inr rfl

end Parser

/-- An error of compiling with a line and a column is at a place in an output or a block of the source.
If a name has no tag, it is the name of a block, and the place is where the content of the block
begins. -/
theorem place_of_compile {env : Environment} {e : TemplateError}
    (h : env.compile source = .error e) :
    (∀ line column fault, e = .malformed line column fault →
      ∃ part ∈ Part.ofSource source, ∃ o, part.Covers source.toList o ∧
        line = (positionAt source.toList o).line ∧
        column = (positionAt source.toList o).column) ∧
    ∀ name line column,
      e = .unknownTag name line column ∨ e = .unexpectedEndTag name line column →
        ∃ content offset head, Part.block content offset ∈ Part.ofSource source ∧
          BlockHead.read? content = some head ∧ name = head.name ∧
          (Part.block content offset).Covers source.toList offset ∧
          line = (positionAt source.toList offset).line ∧
          column = (positionAt source.toList offset).column := by
  rcases reports_of_compile h with ⟨name, rfl⟩ | ⟨part, hpart, hblames⟩
  · constructor
    · intro line column fault heq
      cases heq
    · intro name line column heq
      rcases heq with heq | heq <;> cases heq
  rcases hblames.covers hpart with ⟨o, fault, rfl, hcovers⟩ | ⟨content, offset, head, rfl, hhead, htag⟩
  · constructor
    · intro line column fault heq
      cases heq
      exact ⟨part, hpart, o, hcovers, rfl, rfl⟩
    · intro name line column heq
      rcases heq with heq | heq <;> cases heq
  · have hcovers := Part.covers_offset hpart rfl
    constructor
    · intro line column fault heq
      rcases Parser.tagOf_eq_error htag with rfl | rfl <;> cases heq
    · intro name line column heq
      refine ⟨content, offset, head, hpart, hhead, ?_⟩
      rcases Parser.tagOf_eq_error htag with rfl | rfl <;> rcases heq with heq | heq <;> cases heq <;>
        exact ⟨rfl, hcovers, rfl, rfl⟩

/-- A block with its arguments on the next line, where a letter begins no name. -/
def brokenBox : String :=
  "é \x7b%box\n ü=x é%\x7d"

/-- A block whose name has no tag. -/
def unknownBox : String :=
  "é\n\x7b% bux ü%\x7d"

/-- Arguments are at fault on their own line, behind characters of two bytes. A name without a tag is
reported where the content of its block begins, in front of the blank. -/
theorem place_of_compile_box :
    (∃ fault, boxEnvironment.compile brokenBox = .error (.malformed 2 2 fault) ∧
      ∃ part ∈ Part.ofSource brokenBox, ∃ o, part.Covers brokenBox.toList o ∧
        2 = (positionAt brokenBox.toList o).line ∧ 2 = (positionAt brokenBox.toList o).column) ∧
    boxEnvironment.compile unknownBox = .error (.unknownTag "bux" 2 3) ∧
      ∃ content offset head, Part.block content offset ∈ Part.ofSource unknownBox ∧
        BlockHead.read? content = some head ∧ "bux" = head.name ∧
        (Part.block content offset).Covers unknownBox.toList offset ∧
        2 = (positionAt unknownBox.toList offset).line ∧
        3 = (positionAt unknownBox.toList offset).column := by
  have hbroken : boxEnvironment.compile brokenBox =
      .error (.malformed 2 2 (.unreadable [.argument, .endOfInput])) := by
    have hparts : Part.ofSource brokenBox = [.text "é ", .block "box\n ü=x é" 5] := by
      decide +kernel
    rw [Environment.compile]
    simp only [Parser.start, hparts]
    rfl
  have hunknown : boxEnvironment.compile unknownBox = .error (.unknownTag "bux" 2 3) := by
    have hparts : Part.ofSource unknownBox = [.text "é\n", .block " bux ü" 5] := by
      decide +kernel
    have hhead : BlockHead.read? " bux ü" = some ⟨"bux", " ü", 4⟩ := by decide
    have hnone : boxEnvironment.tag? "bux" = none := rfl
    have hend : "bux".startsWith "end" = false := by decide +kernel
    have htag : Parser.tagOf ⟨boxEnvironment, unknownBox⟩ "bux" 5 =
        .error (.unknownTag "bux" 2 3) := by
      simp only [Parser.tagOf, hnone, hend]
      rfl
    rw [Environment.compile]
    simp only [Parser.start, hparts, Parser.nodes, EStateM.run_bind, EStateM.run_get,
      List.length_cons, List.length_nil, Parser.nodesWithin, Parser.run_round_text,
      Parser.run_round_block, hhead, htag]
    rfl
  exact ⟨⟨_, hbroken, (place_of_compile hbroken).1 _ _ _ rfl⟩, hunknown,
    (place_of_compile hunknown).2 _ _ _ (Or.inl rfl)⟩

end TagTemplate.Template
