import Mathlib.Data.List.TakeWhile
import RemoteKeys.Proofs.Text.Parts
import RemoteKeys.Text.Place

/-!
# Places are lines and columns

The place of a byte offset is found by walking over the lines of a text and the bytes of one of
them. Where the offset is that of a whole character, or of the end of the text, this comes to what a
reader would count: the line feeds in front of it, and the characters behind the last of these.

## Main results

- `place_append`: the place of the byte behind some whole lines and the front of another one.
- `lineColumn_append`: the line and the column there.
-/

namespace RemoteKeys.Text

/-- Nothing, or lines with their ends. -/
def IsLines (text : List Char) : Prop := text = [] ∨ text.getLast? = some '\n'

variable {above front rest : List Char}

private theorem takeWhile_append_of_inner (inner : '\n' ∉ front) (rest : List Char) :
    (front ++ rest).takeWhile (· ≠ '\n') = front ++ rest.takeWhile (· ≠ '\n') := by
  apply List.takeWhile_append_of_pos
  intro c mem
  simpa using ne_of_mem_of_not_mem mem inner

theorem lineColumn_append (whole : IsLines above) (inner : '\n' ∉ front) (rest : List Char) :
    lineColumn (above ++ front ++ rest) (above ++ front).length =
      (above.count '\n' + 1, front.length + 1) := by
  have behind : above.reverse.takeWhile (· ≠ '\n') = [] := by
    rcases whole with rfl | ends
    · rfl
    · obtain ⟨a, rfl⟩ := List.getLast?_eq_some_iff.mp ends
      simp
  -- Read backwards, the line in question ends where the one above it does.
  have last : (above ++ front).reverse.takeWhile (· ≠ '\n') = front.reverse := by
    rw [List.reverse_append, takeWhile_append_of_inner (mt List.mem_reverse.mp inner), behind,
      List.append_nil]
  rw [lineColumn, List.take_left, last, List.length_reverse, List.count_append,
    List.count_eq_zero_of_not_mem inner, Nat.add_zero]

/-! ### Lines -/

private theorem length_splitOn (text : List Char) :
    (text.splitOn '\n').length = text.count '\n' + 1 := by
  induction text with
  | nil => rfl
  | cons c rest ih =>
    rw [List.splitOn_cons_eq_if_modifyHead, List.count_cons]
    split <;> simp [ih]

private theorem length_linesFrom (start : Nat) (ls : List (List Char)) :
    (linesFrom start ls).length = ls.length := by
  rw [← List.length_map Slice.chars, map_chars_linesFrom]

private theorem exists_lines_append (whole : IsLines above) (text : List Char) : ∃ passed,
    lines (above ++ text) = passed ++ linesFrom (byteLength above) (text.splitOn '\n') ∧
      passed.length = above.count '\n' ∧ ∀ line ∈ passed, line.start ≤ byteLength above := by
  rcases whole with rfl | ends
  · exact ⟨[], rfl, rfl, nofun⟩
  · obtain ⟨a, rfl⟩ := List.getLast?_eq_some_iff.mp ends
    refine ⟨lines a, ?_, ?_, fun line mem => ?_⟩
    · rw [List.append_assoc, List.singleton_append, lines_append_cons, byteLength_append]
      rfl
    · rw [lines, length_linesFrom, length_splitOn, List.count_append]
      rfl
    · obtain ⟨-, before, after, split, -, start⟩ := exists_of_mem_linesFrom mem
      rw [List.intercalate_splitOn] at split
      rw [start, split]
      simp only [byteLength_append]
      omega

private theorem exists_splitOn (text : List Char) : ∃ others,
    text.splitOn '\n' = text.takeWhile (· ≠ '\n') :: others := by
  induction text with
  | nil => exact ⟨[], rfl⟩
  | cons c rest ih =>
    obtain ⟨others, split⟩ := ih
    rw [List.splitOn_cons_eq_if_modifyHead, split]
    by_cases ends : c = '\n' <;> simp [ends]

/-! ### Places -/

private theorem charsBefore_append (start : Nat) (front rest : List Char) :
    charsBefore (start + byteLength front) start (front ++ rest) = front.length := by
  induction front generalizing start with
  | nil => cases rest <;> simp [charsBefore]
  | cons c front ih =>
    -- The offset is behind the whole front, and so behind where this character starts.
    have positive := c.utf8Size_pos
    have inside : start < start + byteLength (c :: front) := by
      rw [byteLength_cons]
      omega
    rw [List.cons_append, charsBefore, if_pos inside, byteLength_cons, ← Nat.add_assoc, ih,
      List.length_cons]

private theorem place_of_lines {text : List Char} {line : Slice} {others : List Slice}
    (split : lines text = line :: others) (offset : Nat) :
    place text offset = placeAmong offset 1 line others := by
  rw [place, split]

/-- The walk goes past lines that start at or before the offset. -/
theorem placeAmong_append {offset : Nat} {passed : List Slice}
    (reached : ∀ line ∈ passed, line.start ≤ offset) {next : Slice}
    (next_reached : next.start ≤ offset) (number : Nat) (line : Slice) (rest : List Slice) :
    placeAmong offset number line (passed ++ next :: rest) =
      placeAmong offset (number + passed.length + 1) next rest := by
  induction passed generalizing number line with
  | nil => rw [List.nil_append, placeAmong, if_pos next_reached]; rfl
  | cons first others ih =>
    obtain ⟨first_reached, others_reached⟩ := List.forall_mem_cons.mp reached
    rw [List.cons_append, placeAmong, if_pos first_reached, ih others_reached, List.length_cons,
      Nat.add_right_comm number, Nat.add_assoc number]

private theorem placeAmong_linesFrom {offset start : Nat} (before : offset < start) (number : Nat)
    (line : Slice) (others : List (List Char)) :
    placeAmong offset number line (linesFrom start others) = placeOn offset number line := by
  cases others with
  | nil => rfl
  | cons next others => rw [linesFrom, placeAmong, if_neg (Nat.not_le.mpr before)]

/-- The text is cut in front of the line that a byte belongs to, and behind it. -/
structure LineAt (text : List Char) (offset : Nat) (above line below : List Char) : Prop where
  split : text = above ++ line ++ below
  whole : IsLines above
  inner : '\n' ∉ line
  ended : below = [] ∨ below.head? = some '\n'
  reached : byteLength above ≤ offset
  here : below = [] ∨ offset ≤ byteLength (above ++ line)

theorem LineAt.splitOn_eq {text : List Char} {offset : Nat} {line below : List Char}
    (cut : LineAt text offset above line below) :
    ∃ others, (line ++ below).splitOn '\n' = line :: others ∧ (below = [] → others = []) := by
  obtain ⟨others, split⟩ := exists_splitOn (line ++ below)
  have stops : below.takeWhile (· ≠ '\n') = [] := by
    rcases cut.ended with rfl | feed
    · rfl
    · obtain ⟨rest, rfl⟩ := List.head?_eq_some_iff.mp feed
      rfl
  rw [takeWhile_append_of_inner cut.inner, stops, List.append_nil] at split
  refine ⟨others, split, ?_⟩
  rintro rfl
  rw [List.append_nil, List.splitOn_eq_singleton cut.inner] at split
  exact (List.tail_eq_of_cons_eq split).symm

/-- Walking over the lines finds the one that the byte belongs to. -/
theorem LineAt.place_eq {text : List Char} {offset : Nat} {line below : List Char}
    (cut : LineAt text offset above line below) :
    place text offset = placeOn offset (above.count '\n' + 1) ⟨byteLength above, line⟩ := by
  obtain ⟨passed, split, count, reached⟩ := exists_lines_append cut.whole (line ++ below)
  obtain ⟨others, first, last⟩ := cut.splitOn_eq
  rw [first, linesFrom, ← List.append_assoc, ← cut.split] at split
  -- The walk stops on the line, since it is the last one or the next one starts behind the byte.
  have stops (number : Nat) (line' : Slice) :
      placeAmong offset number line' (linesFrom (byteLength above + byteLength line + 1) others) =
        placeOn offset number line' := by
    rcases cut.here with nothing | inside
    · rw [last nothing]
      rfl
    · rw [byteLength_append] at inside
      exact placeAmong_linesFrom (by omega) number line' others
  -- It starts on the first line, which is the line in question where nothing is above it.
  cases passed with
  | nil => rw [place_of_lines split, stops, ← count, List.length_nil]
  | cons first passed =>
    obtain ⟨-, later_reached⟩ := List.forall_mem_cons.mp reached
    have passed_reached (l : Slice) (mem : l ∈ passed) : l.start ≤ offset :=
      Nat.le_trans (later_reached l mem) cut.reached
    rw [List.cons_append] at split
    rw [place_of_lines split, placeAmong_append passed_reached cut.reached, stops, ← count,
      List.length_cons, Nat.add_comm 1]

/-- The place of the byte behind some whole lines and the front of another one. -/
theorem place_append (whole : IsLines above) (inner : '\n' ∉ front) (rest : List Char) :
    place (above ++ front ++ rest) (byteLength (above ++ front)) =
      { line := above.count '\n' + 1, column := front.length + 1,
        text := ⟨byteLength above, front ++ rest.takeWhile (· ≠ '\n')⟩ } := by
  have cut : LineAt (above ++ front ++ rest) (byteLength (above ++ front)) above
      (front ++ rest.takeWhile (· ≠ '\n')) (rest.dropWhile (· ≠ '\n')) := by
    refine ⟨?_, whole, ?_, ?_, ?_, Or.inr ?_⟩
    · rw [List.append_assoc, List.append_assoc, List.append_assoc, List.takeWhile_append_dropWhile]
    · rw [List.mem_append, not_or]
      exact ⟨inner, fun mem => by simpa using List.mem_takeWhile_imp mem⟩
    · cases behind : rest.dropWhile (· ≠ '\n') with
      | nil => exact Or.inl rfl
      | cons c others =>
        have stop := List.head?_dropWhile_not (· ≠ '\n') rest
        rw [behind] at stop
        exact Or.inr (by simpa using stop)
    · rw [byteLength_append]
      exact Nat.le_add_right ..
    · rw [← List.append_assoc, byteLength_append (above ++ front)]
      exact Nat.le_add_right ..
  rw [cut.place_eq, placeOn, byteLength_append, charsBefore_append]

end RemoteKeys.Text
