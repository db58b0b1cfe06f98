import Mathlib.Data.List.DropRight
import Mathlib.Data.List.TakeWhile
import RemoteKeys.Text.Slice

/-!
# The contents of lines

What a file says depends on the characters of its contents only; the offsets that slices carry serve
messages. This module reads the contents of a text without slices, and says what trimming and
cutting do to them.

## Main statements

- `map_chars_contents`: the contents are the lines up to their comments, trimmed, those left empty
  apart.
- `tight_of_mem_contentTexts`: a content ends in no blank, so that its last part needs no trimming.
- `Slice.exists_cut?`, `Slice.chars_of_cut?`: a text is cut at the first place where it can be.
-/

namespace RemoteKeys.Text

/-- The contents of the lines of a text, as texts. -/
def contentTexts (source : List Char) : List (List Char) :=
  ((source.splitOn '\n').map fun line => trim (line.takeWhile (· ≠ '#'))).filter (· ≠ [])

/-- The contents of a text that starts at byte `start`. -/
def contentsFrom (start : Nat) (text : List Char) : List Slice :=
  ((linesFrom start (text.splitOn '\n')).map Slice.content).filter fun content => ¬ content.IsEmpty

theorem map_chars_linesFrom (start : Nat) (ls : List (List Char)) :
    (linesFrom start ls).map Slice.chars = ls := by
  induction ls generalizing start with
  | nil => rfl
  | cons line rest ih => rw [linesFrom, List.map_cons, ih]

theorem map_chars_contentsFrom (start : Nat) (text : List Char) :
    (contentsFrom start text).map Slice.chars = contentTexts text := by
  have lined : (linesFrom start (text.splitOn '\n')).map Slice.chars = text.splitOn '\n' :=
    map_chars_linesFrom start _
  rw [contentTexts, ← lined, contentsFrom, List.map_map, List.filter_map, List.filter_map,
    List.map_map]
  rfl

theorem map_chars_contents (source : List Char) :
    (contents source).map Slice.chars = contentTexts source := map_chars_contentsFrom 0 source

/-! ### Trimming -/

/-- The text ends in no blank. -/
def Tight (text : List Char) : Prop := ∀ c, text.getLast? = some c → isBlank c = false

private theorem trimEnd_eq_self_iff {text : List Char} : trimEnd text = text ↔ Tight text := by
  have dropped : trimEnd text = text.rdropWhile isBlank := rfl
  rw [dropped, List.rdropWhile_eq_self_iff, Tight]
  constructor
  · intro last c ends
    have nonempty : text ≠ [] := by rintro rfl; cases ends
    have same : text.getLast nonempty = c := by
      rw [List.getLast?_eq_some_getLast nonempty] at ends
      exact Option.some.inj ends
    simpa [same] using last nonempty
  · intro tight nonempty
    simpa using tight _ (List.getLast?_eq_some_getLast nonempty)

theorem tight_trimEnd (text : List Char) : Tight (trimEnd text) :=
  trimEnd_eq_self_iff.mp (List.rdropWhile_idempotent isBlank text)

theorem Tight.of_append {a b : List Char} (tight : Tight (a ++ b)) : Tight b := by
  intro c ends
  apply tight c
  rw [List.getLast?_append, ends, Option.some_or]

/-- Where no blanks stand at the end, only the front needs trimming. -/
theorem Tight.trim_eq {text : List Char} (tight : Tight text) :
    trim text = text.dropWhile isBlank := by
  rw [← List.takeWhile_append_dropWhile (p := isBlank) (l := text)] at tight
  exact trimEnd_eq_self_iff.mpr tight.of_append

theorem tight_of_mem_contentTexts {source text : List Char} (mem : text ∈ contentTexts source) :
    Tight text := by
  obtain ⟨line, -, rfl⟩ := List.mem_map.mp (List.mem_filter.mp mem).1
  exact tight_trimEnd _

/-! ### Cutting -/

private theorem ne_of_first {a : List Char} {c : Char} (first : c ∉ a) :
    ∀ x ∈ a, decide (x ≠ c) = true := by
  intro x mem
  rw [decide_eq_true_eq]
  rintro rfl
  exact first mem

theorem Slice.exists_cut? {s : Slice} {a b : List Char} {c : Char} (split : s.chars = a ++ c :: b)
    (first : c ∉ a) : ∃ before after, s.cut? c = some (before, after) ∧
      before.chars = a ∧ after.chars = b := by
  have front : s.chars.takeWhile (· ≠ c) = a := by
    rw [split, List.takeWhile_append_of_pos (ne_of_first first)]
    simp
  have rear : s.chars.dropWhile (· ≠ c) = c :: b := by
    rw [split, List.dropWhile_append_of_pos (ne_of_first first)]
    simp
  have there : c ∈ s.chars := by simp [split]
  exact ⟨_, _, by rw [cut?, if_pos there], front, by simp only [tail, dropWhile, rear]⟩

theorem Slice.chars_of_cut? {s before after : Slice} {c : Char}
    (cut : s.cut? c = some (before, after)) :
    s.chars = before.chars ++ c :: after.chars ∧ c ∉ before.chars := by
  -- The cut is at the first such character, so that it is the one that `exists_cut?` finds.
  have there : c ∈ s.chars := by
    by_contra absent
    simp [cut?, absent] at cut
  obtain ⟨a, b, split, first⟩ := List.eq_append_cons_of_mem there
  obtain ⟨_, _, found, rfl, rfl⟩ := exists_cut? split first
  rw [found] at cut
  cases cut
  exact ⟨split, first⟩

end RemoteKeys.Text
