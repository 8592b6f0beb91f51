/-!
# Positions

A place in a source text, given by its offset in bytes of UTF-8 and by its line and column, which
count from one. A column counts characters, and only a line feed ends a line. `Position.after`
moves a position over characters, so a place is known by the text before it.
-/

namespace TagTemplate

/-- A place in a source text. -/
structure Position where
  offset : Nat
  line : Nat
  column : Nat
  deriving DecidableEq

namespace Position

/-- The beginning of a text. -/
def start : Position :=
  ⟨0, 1, 1⟩

/-- Moves over one character. -/
def step (p : Position) (c : Char) : Position :=
  if c = '\n' then ⟨p.offset + c.utf8Size, p.line + 1, 1⟩
  else ⟨p.offset + c.utf8Size, p.line, p.column + 1⟩

/-- Moves over a list of characters. -/
def after (p : Position) (cs : List Char) : Position :=
  cs.foldl step p

@[simp] theorem after_nil (p : Position) : p.after [] = p := rfl

@[simp] theorem after_cons (p : Position) (c : Char) (cs : List Char) :
    p.after (c :: cs) = (p.step c).after cs := rfl

@[simp] theorem after_append (p : Position) (as bs : List Char) :
    p.after (as ++ bs) = (p.after as).after bs := by
  simp [after, List.foldl_append]

end Position

/-- The size of a text in bytes. -/
def byteSize : List Char → Nat
  | [] => 0
  | c :: cs => c.utf8Size + byteSize cs

theorem Position.offset_after (p : Position) (cs : List Char) :
    (p.after cs).offset = p.offset + byteSize cs := by
  induction cs generalizing p with
  | nil => rfl
  | cons c cs ih =>
    rw [Position.after_cons, ih]
    simp only [byteSize, Position.step]
    split <;> simp only [] <;> omega

/-- The characters that fit into the first `n` bytes of a text. -/
def takeBytes (n : Nat) : List Char → List Char
  | [] => []
  | c :: cs => if c.utf8Size ≤ n then c :: takeBytes (n - c.utf8Size) cs else []

/-- The place at a byte offset of a source text. -/
def positionAt (source : List Char) (offset : Nat) : Position :=
  Position.start.after (takeBytes offset source)

/-- A piece of a source text: where it begins, and the offset at which it ends. -/
structure Span where
  start : Position
  stop : Nat
  deriving DecidableEq

/-- The span of a text that begins at `start`. -/
def Span.over (start : Position) (text : List Char) : Span :=
  ⟨start, start.offset + byteSize text⟩

end TagTemplate
