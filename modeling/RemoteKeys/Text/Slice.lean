import RemoteKeys.Text.Blank

/-!
# Slices of a text

Files are read as lists of characters, and what is found in them is reported by byte offsets in
their UTF-8 form. A slice is a part of a text that knows the byte it starts at. Every way of cutting
a slice down gives a slice again, so that a message can always point at the text it speaks of.
-/

namespace RemoteKeys.Text

/-- Number of bytes of a text in UTF-8. -/
def byteLength : List Char → Nat
  | [] => 0
  | c :: rest => c.utf8Size + byteLength rest

/-- A range of byte offsets; the end is not in the range. -/
structure Span where
  start : Nat
  stop : Nat
  deriving DecidableEq

/-- A part of a text, with the byte offset it starts at. -/
structure Slice where
  start : Nat
  chars : List Char
  deriving DecidableEq

namespace Slice

def stop (s : Slice) : Nat := s.start + byteLength s.chars

def span (s : Slice) : Span := ⟨s.start, s.stop⟩

def IsEmpty (s : Slice) : Prop := s.chars = []

instance (s : Slice) : Decidable s.IsEmpty := inferInstanceAs (Decidable (s.chars = []))

/-- The longest part at the front whose characters all satisfy `p`. -/
def takeWhile (s : Slice) (p : Char → Bool) : Slice := ⟨s.start, s.chars.takeWhile p⟩

/-- What is left when that part is cut off. -/
def dropWhile (s : Slice) (p : Char → Bool) : Slice :=
  ⟨s.start + byteLength (s.chars.takeWhile p), s.chars.dropWhile p⟩

def tail (s : Slice) : Slice :=
  match s.chars with
  | [] => s
  | c :: rest => ⟨s.start + c.utf8Size, rest⟩

def trimStart (s : Slice) : Slice := s.dropWhile isBlank

def trimEnd (s : Slice) : Slice := ⟨s.start, Text.trimEnd s.chars⟩

def trim (s : Slice) : Slice := s.trimStart.trimEnd

/-- What stands before the first `c` and what stands behind it, if there is one. -/
def cut? (s : Slice) (c : Char) : Option (Slice × Slice) :=
  if c ∈ s.chars then some (s.takeWhile (· ≠ c), (s.dropWhile (· ≠ c)).tail) else none

/-- The first word of a slice that starts with none of its blanks, and what follows the blanks
behind it. -/
def cutWord (s : Slice) : Slice × Slice :=
  (s.takeWhile (!isBlank ·), (s.dropWhile (!isBlank ·)).trimStart)

end Slice

/-- The lines of a text whose first line starts at byte `start`; one byte ends a line. -/
def linesFrom (start : Nat) : List (List Char) → List Slice
  | [] => []
  | line :: rest => ⟨start, line⟩ :: linesFrom (start + byteLength line + 1) rest

/-- The lines of a text, without their ends. Behind the last line end stands one more line. -/
def lines (text : List Char) : List Slice := linesFrom 0 (text.splitOn '\n')

/-- A line up to its comment, without the blanks at either end. -/
def Slice.content (line : Slice) : Slice := (line.takeWhile (· ≠ '#')).trim

/-- The contents of those lines that hold anything but blanks and a comment. -/
def contents (text : List Char) : List Slice :=
  ((lines text).map Slice.content).filter fun content => ¬ content.IsEmpty

@[simp] theorem byteLength_nil : byteLength [] = 0 := rfl

@[simp] theorem byteLength_cons (c : Char) (rest : List Char) :
    byteLength (c :: rest) = c.utf8Size + byteLength rest := rfl

@[simp] theorem byteLength_append (a b : List Char) :
    byteLength (a ++ b) = byteLength a + byteLength b := by
  induction a with
  | nil => simp
  | cons c rest ih => simp [ih, Nat.add_assoc]

theorem Slice.takeWhile_append_dropWhile (s : Slice) (p : Char → Bool) :
    (s.takeWhile p).chars ++ (s.dropWhile p).chars = s.chars := List.takeWhile_append_dropWhile

end RemoteKeys.Text
