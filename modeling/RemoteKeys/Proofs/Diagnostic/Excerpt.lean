import RemoteKeys.Diagnostic
import RemoteKeys.Proofs.Text.Scan

/-!
# Excerpts

An excerpt shows a diagnostic with the line of the source that its span starts on. No span is
refused: one that goes backwards, ends behind the source or starts inside a character is shown as
well, since only its start is looked at, and every byte belongs to a line.

## Main result

`Diagnostic.excerpt_shows_line`: the place of any span by counting, the part of the source that is
its line, and the excerpt, which lists this line alone.
-/

namespace RemoteKeys

open Text

namespace Diagnostic

/-- Lines behind their numbers, the first of which is `number`, with the numbers as wide as
`width`. -/
def numbered (width number : Nat) : List (List Char) → String
  | [] => ""
  | line :: rest =>
    " " ++ padLeft width (toString number) ++ " | " ++ String.ofList line ++ "\n" ++
      numbered width (number + 1) rest

/-- The message, and the place in the file. -/
def heading (d : Diagnostic) (path : String) (line column : Nat) : String :=
  "error: " ++ d.message ++ " \n   --> " ++ path ++ ":" ++ toString line ++ ":" ++
    toString column ++ "\n"

/-- Number of characters that the line numbers of an excerpt take. -/
def numberWidth (line : Nat) : Nat := (toString (line + 10)).length

private theorem excerpt_eq (d : Diagnostic) (path : String) (source : List Char) :
    d.excerpt path source = d.heading path (d.place source).line (d.place source).column ++
      numbered (numberWidth (d.place source).line)
        (d.place source).line [(d.place source).text.chars] := by
  -- What goes on the same line as a number is printed in one piece with the end of the line above
  -- it.
  have break_before : "\n " = "\n" ++ " " := by decide
  unfold excerpt heading numbered numbered numberWidth
  dsimp only
  generalize padLeft _ _ = number
  simp only [break_before, String.append_assoc, String.append_empty]

/--
The place of a span of any kind is found by counting: the line feeds in front of its start, and the
characters of the line that start in front of it. The line is the part of the source from behind the
last of these line feeds to the next one; it is cut out between whole characters, and there is no
line feed on it. One scan over the source finds this line and column and these bytes. The excerpt
lists the lines of that part, which is the one line, behind its number. Without a span the place is
an empty line of number 0.
-/
theorem excerpt_shows_line (d : Diagnostic) (source : List Char) (path : String) :
    let place := d.place source
    (∀ span, d.span? = some span →
      place.line = 1 + (feeds source).countP (· < span.start) ∧
      place.column = 1 + (charsFrom 0 source).countP (fun p =>
        place.text.start ≤ p.1 ∧ p.1 < place.text.stop ∧ p.1 < span.start) ∧
      (place.text.start = lineStart source span.start ∧
        place.text.stop = lineStop source span.start) ∧
      (place.text.start ≤ place.text.stop ∧ place.text.stop ≤ byteLength source) ∧
      (∃ above below, source = above ++ place.text.chars ++ below ∧
        byteLength above = place.text.start ∧
        byteLength (above ++ place.text.chars) = place.text.stop) ∧
      '\n' ∉ place.text.chars ∧ place.text.chars.splitOn '\n' = [place.text.chars] ∧
      scan source span.start = (place.line, place.column, place.text.span) ∧
      d.excerpt path source = d.heading path place.line place.column ++
        numbered (numberWidth place.line) place.line (place.text.chars.splitOn '\n')) ∧
    (d.span? = none → place = { line := 0, column := 0, text := ⟨0, []⟩ } ∧
      d.excerpt path source = d.heading path 0 0 ++ "  0 | \n") := by
  intro place
  refine ⟨fun span shown => ?_, fun spanless => ?_⟩
  · obtain ⟨above, line, below, cut⟩ := exists_lineAt source span.start
    have here : place = Text.place source span.start := place_of_span shown source
    have found : place = placeOn span.start (above.count '\n' + 1) ⟨byteLength above, line⟩ :=
      here.trans cut.place_eq
    have scanned : scan source span.start = (place.line, place.column, place.text.span) := by
      rw [scan_eq_place, here]
    have stop : (⟨byteLength above, line⟩ : Slice).stop = byteLength (above ++ line) :=
      (byteLength_append ..).symm
    have counted := cut.countP_charsFrom
    rw [← stop] at counted
    have within : byteLength (above ++ line) ≤ byteLength source := by
      rw [cut.split, byteLength_append (above ++ line)]
      exact Nat.le_add_right ..
    have single : line.splitOn '\n' = [line] := List.splitOn_eq_singleton cut.inner
    have listed := d.excerpt_eq path source
    rw [show d.place source = _ from found] at listed
    rw [found] at scanned ⊢
    refine ⟨?_, ?_, ⟨cut.lineStart_eq.symm, stop.trans cut.lineStop_eq.symm⟩,
      ⟨Nat.le_add_right .., ?_⟩, ⟨above, below, cut.split, rfl, stop.symm⟩, cut.inner, single,
      scanned, ?_⟩
    · rw [cut.countP_feeds]
      exact Nat.add_comm ..
    · exact (Nat.add_comm ..).trans (congrArg (1 + ·) counted.symm)
    · exact stop.trans_le within
    · rw [listed]
      exact congrArg (fun lines => _ ++ numbered _ _ lines) single.symm
  · have found : place = { line := 0, column := 0, text := ⟨0, []⟩ } := by
      rw [show place = d.place source from rfl, Diagnostic.place, spanless]
    have listed := d.excerpt_eq path source
    rw [show d.place source = _ from found] at listed
    exact ⟨found, listed⟩

/-- A span that goes backwards and starts inside a character of two bytes, and one far behind the
end of the file. -/
theorem excerpt_shows_line_unicode :
    let source := "[gpio_ir]\n# caf\u00e9 = 1\nminor".toList
    let inside : Diagnostic := { message := "Bad", span? := some ⟨16, 3⟩ }
    let beyond : Diagnostic := { message := "Bad", span? := some ⟨100, 101⟩ }
    (inside.span? = some ⟨16, 3⟩ ∧ beyond.span? = some ⟨100, 101⟩) ∧
      (inside.place source).line = 2 ∧ (inside.place source).column = 7 ∧
      ((inside.place source).text.start = 10 ∧ (inside.place source).text.stop = 21) ∧
      inside.excerpt "card.conf" source =
        "error: Bad \n   --> card.conf:2:7\n  2 | # caf\u00e9 = 1\n" ∧
      (beyond.place source).line = 3 ∧ (beyond.place source).column = 6 ∧
      ((beyond.place source).text.start = 22 ∧ (beyond.place source).text.stop = 27) ∧
      beyond.excerpt "card.conf" source = "error: Bad \n   --> card.conf:3:6\n  3 | minor\n" := by
  intro source inside beyond
  obtain ⟨line, column, ⟨start, stop⟩, -, -, -, -, -, listed⟩ :=
    (excerpt_shows_line inside source "card.conf").1 ⟨16, 3⟩ rfl
  obtain ⟨line', column', ⟨start', stop'⟩, -, -, -, -, -, listed'⟩ :=
    (excerpt_shows_line beyond source "card.conf").1 ⟨100, 101⟩ rfl
  refine ⟨⟨rfl, rfl⟩, line.trans ?_, column.trans ?_, ⟨start.trans ?_, stop.trans ?_⟩,
    listed.trans ?_, line'.trans ?_, column'.trans ?_, ⟨start'.trans ?_, stop'.trans ?_⟩,
    listed'.trans ?_⟩ <;> decide +kernel

end Diagnostic

end RemoteKeys
