import RemoteKeys.Text.Slice

/-!
# Places in a text

A byte offset is shown to the user as a line and a column, both counted from one, columns in
characters. The place of an offset is found by walking over the lines: an offset belongs to the last
line that starts at or before it. An offset inside a character counts as behind it, and one past the
end of the text belongs to the last line. One scan over the characters that stops at the end of the
line comes to the same place.
-/

namespace RemoteKeys.Text

/-- A line and a column, and the line's own text. -/
structure Place where
  line : Nat
  column : Nat
  text : Slice
  deriving DecidableEq

/-- Number of characters that start before byte `offset`, in a text that starts at byte `start`. -/
def charsBefore (offset start : Nat) : List Char → Nat
  | [] => 0
  | c :: rest => if start < offset then charsBefore offset (start + c.utf8Size) rest + 1 else 0

/-- The place of an offset on a line with that number. -/
def placeOn (offset number : Nat) (line : Slice) : Place :=
  { line := number, column := charsBefore offset line.start line.chars + 1, text := line }

/-- The place of an offset, where `line` has that number and the others follow it. -/
def placeAmong (offset number : Nat) (line : Slice) : List Slice → Place
  | [] => placeOn offset number line
  | next :: rest =>
    if next.start ≤ offset then placeAmong offset (number + 1) next rest
      else placeOn offset number line

def place (text : List Char) (offset : Nat) : Place :=
  match lines text with
  | [] => placeOn offset 1 ⟨0, []⟩
  | line :: rest => placeAmong offset 1 line rest

/--
Scans a text for the line of an offset. The scan has come to byte `position`, which stands on a line
of that number from byte `lineStart` on, and has counted up to `column` there.
-/
def scanFrom (offset line column lineStart position : Nat) : List Char → Nat × Nat × Span
  | [] => (line, column, ⟨lineStart, position⟩)
  | c :: rest =>
    if c = '\n' then
      if position < offset then scanFrom offset (line + 1) 1 (position + 1) (position + 1) rest
      else (line, column, ⟨lineStart, position⟩)
    else
      let column := if position < offset then column + 1 else column
      scanFrom offset line column lineStart (position + c.utf8Size) rest

/-- The line, the column and the bytes of the line of an offset, in one scan from the start. -/
def scan (text : List Char) (offset : Nat) : Nat × Nat × Span := scanFrom offset 1 1 0 0 text

/-- The line and the column of a character offset, both counted from one. -/
def lineColumn (text : List Char) (offset : Nat) : Nat × Nat :=
  let before := text.take offset
  (before.count '\n' + 1, (before.reverse.takeWhile (· ≠ '\n')).length + 1)

end RemoteKeys.Text
