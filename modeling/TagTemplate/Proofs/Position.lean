import TagTemplate.Position

/-!
# Texts at byte offsets

Spans count bytes and texts are lists of characters. Two cuts of one text are compared by the bytes in
front of them, so that a span that is given by the text before it and by its own text can be cut out
of the source again.

> `exists_middle_of_byteSize_le`: of two fronts of a text, the one with fewer bytes is a front of the
> other.
> `Span.textIn_over`: what stands at the span of a text is that text.
-/

namespace TagTemplate

variable {front back front' back' : List Char}

/-! ## Sizes -/

theorem byteSize_append (cs ds : List Char) : byteSize (cs ++ ds) = byteSize cs + byteSize ds := by
  induction cs with
  | nil => exact (Nat.zero_add _).symm
  | cons c cs ih => rw [List.cons_append, byteSize, byteSize, ih, Nat.add_assoc]

theorem utf8ByteSize_ofList (cs : List Char) : (String.ofList cs).utf8ByteSize = byteSize cs := by
  induction cs with
  | nil => rfl
  | cons c cs ih =>
    rw [String.ofList_cons, String.utf8ByteSize_append, String.utf8ByteSize_singleton, ih, byteSize]

theorem eq_nil_of_byteSize {cs : List Char} (h : byteSize cs = 0) : cs = [] := by
  cases cs with
  | nil => rfl
  | cons c cs =>
    have hpos := c.utf8Size_pos
    rw [byteSize] at h
    omega

/-- Of two fronts of a text, the one with fewer bytes is a front of the other. -/
theorem exists_middle_of_byteSize_le (h : front ++ back = front' ++ back')
    (hsize : byteSize front ≤ byteSize front') :
    ∃ middle, front' = front ++ middle ∧ back = middle ++ back' := by
  rcases List.append_eq_append_iff.mp h with ⟨middle, hfront, hback⟩ | ⟨middle, hfront, hback⟩
  · exact ⟨middle, hfront, hback⟩
  · -- then both have the same bytes, and nothing is between them
    rw [hfront, byteSize_append] at hsize
    have hmiddle := eq_nil_of_byteSize (show byteSize middle = 0 by omega)
    subst hmiddle
    exact ⟨[], by rw [hfront, List.append_nil, List.append_nil], hback.symm⟩

/-- A text is cut in one way at a byte offset. -/
theorem append_inj_of_byteSize (h : front ++ back = front' ++ back')
    (hsize : byteSize front = byteSize front') : front = front' ∧ back = back' := by
  obtain ⟨middle, hfront, hback⟩ := exists_middle_of_byteSize_le h (Nat.le_of_eq hsize)
  rw [hfront, byteSize_append] at hsize
  have hmiddle := eq_nil_of_byteSize (show byteSize middle = 0 by omega)
  subst hmiddle
  exact ⟨by rw [hfront, List.append_nil], hback⟩

/-! ## Pieces of a source text -/

/-- A text without the characters in its first `n` bytes. -/
def dropBytes (n : Nat) : List Char → List Char
  | [] => []
  | c :: cs => if c.utf8Size ≤ n then dropBytes (n - c.utf8Size) cs else c :: cs

theorem takeBytes_append (front back : List Char) :
    takeBytes (byteSize front) (front ++ back) = front := by
  induction front with
  | nil =>
    cases back with
    | nil => rfl
    | cons c back => exact if_neg (Nat.not_le_of_lt c.utf8Size_pos)
  | cons c front ih =>
    rw [List.cons_append, byteSize, takeBytes, if_pos (Nat.le_add_right ..), Nat.add_sub_cancel_left,
      ih]

theorem dropBytes_append (front back : List Char) :
    dropBytes (byteSize front) (front ++ back) = back := by
  induction front with
  | nil =>
    cases back with
    | nil => rfl
    | cons c back => exact if_neg (Nat.not_le_of_lt c.utf8Size_pos)
  | cons c front ih =>
    rw [List.cons_append, byteSize, dropBytes, if_pos (Nat.le_add_right ..), Nat.add_sub_cancel_left,
      ih]

/-- What stands at a span of a source text. -/
def Span.textIn (source : List Char) (s : Span) : List Char :=
  takeBytes (s.stop - s.start.offset) (dropBytes s.start.offset source)

/-- What stands at the span of a text is that text. -/
theorem Span.textIn_over (front text back : List Char) :
    (Span.over (Position.start.after front) text).textIn (front ++ (text ++ back)) = text := by
  have hstart : (Position.start.after front).offset = byteSize front := by
    rw [Position.offset_after]
    exact Nat.zero_add _
  unfold Span.textIn Span.over
  rw [hstart, dropBytes_append, Nat.add_sub_cancel_left, takeBytes_append]

end TagTemplate
