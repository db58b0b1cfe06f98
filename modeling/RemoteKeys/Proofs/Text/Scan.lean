import RemoteKeys.Proofs.Text.Offsets

/-!
# Places in one scan

A place is found by walking over the lines of a text, and as well by one scan over its characters,
which counts as it goes and stops at the end of the line. The scan starts over with its column at
every line feed in front of the offset, so that what it has counted there before does not matter.

## Main result

`scan_eq_place`: the scan finds the place of any offset.
-/

namespace RemoteKeys.Text

variable {offset line column start position : Nat}

private theorem charsBefore_of_le (passed : offset ≤ position) (text : List Char) :
    charsBefore offset position text = 0 := by
  cases text with
  | nil => rfl
  | cons c rest => rw [charsBefore, if_neg (Nat.not_lt.mpr passed)]

/-- On a line, the scan counts the characters in front of the offset. -/
private theorem scanFrom_front {front : List Char} (inner : '\n' ∉ front) (rest : List Char) :
    scanFrom offset line column start position (front ++ rest) =
      scanFrom offset line (column + charsBefore offset position front) start
        (position + byteLength front) rest := by
  induction front generalizing column position with
  | nil => rfl
  | cons c front ih =>
    rw [List.mem_cons, not_or] at inner
    rw [List.cons_append, scanFrom, if_neg (Ne.symm inner.1), ih inner.2, byteLength_cons,
      Nat.add_assoc position]
    by_cases before : position < offset
    · rw [charsBefore, if_pos before, if_pos before, Nat.add_right_comm column,
        Nat.add_assoc column]
    · -- The offset has been passed, and nothing is counted any more.
      have passed := Nat.not_lt.mp before
      rw [if_neg before, charsBefore_of_le passed,
        charsBefore_of_le (Nat.le_trans passed (Nat.le_add_right ..))]

/-- Over whole lines in front of the offset, the scan counts the line feeds. -/
private theorem scanFrom_above {above : List Char} (ends : above.getLast? = some '\n')
    (reached : position + byteLength above ≤ offset) (rest : List Char) :
    scanFrom offset line column start position (above ++ rest) =
      scanFrom offset (line + above.count '\n') 1 (position + byteLength above)
        (position + byteLength above) rest := by
  -- Over the characters, with whatever the scan has counted in front of them.
  induction above generalizing line column start position with
  | nil => cases ends
  | cons c above ih =>
    have positive := c.utf8Size_pos
    rw [byteLength_cons] at reached ⊢
    have before : position < offset := by omega
    rw [List.cons_append, scanFrom, if_pos before, if_pos before]
    by_cases feed : c = '\n'
    · subst feed
      have size : '\n'.utf8Size = 1 := rfl
      rw [if_pos rfl, List.count_cons_self, size]
      rw [size] at reached
      cases above with
      | nil => rfl
      | cons d above =>
        rw [ih ends (by omega), Nat.add_assoc position, Nat.add_right_comm line, Nat.add_assoc line]
    · cases above with
      | nil => exact absurd (Option.some.inj ends) feed
      | cons d above =>
        rw [if_neg feed, List.count_cons_of_ne feed, ih ends (by omega), Nat.add_assoc position]

private theorem LineAt.scan_eq {text above front below : List Char}
    (cut : LineAt text offset above front below) :
    scan text offset = (above.count '\n' + 1, charsBefore offset (byteLength above) front + 1,
      (⟨byteLength above, front⟩ : Slice).span) := by
  have passed : scan text offset = scanFrom offset (1 + above.count '\n') 1 (byteLength above)
      (byteLength above) (front ++ below) := by
    rw [scan, cut.split, List.append_assoc]
    rcases cut.whole with rfl | ends
    · rfl
    · have reached := cut.reached
      rw [scanFrom_above ends (by omega), Nat.zero_add]
  rw [passed, scanFrom_front cut.inner, Nat.add_comm 1, Nat.add_comm 1]
  rcases cut.ended with rfl | feed
  · rfl
  · -- The line ends at or behind the offset, where the scan stops.
    obtain ⟨rest, rfl⟩ := List.head?_eq_some_iff.mp feed
    have inside := cut.here.resolve_left (List.cons_ne_nil _ _)
    rw [byteLength_append] at inside
    rw [scanFrom, if_pos rfl, if_neg (Nat.not_lt.mpr inside)]
    rfl

/-! ### Main result -/

theorem scan_eq_place (text : List Char) (offset : Nat) : scan text offset =
    ((place text offset).line, (place text offset).column, (place text offset).text.span) := by
  obtain ⟨above, front, below, cut⟩ := exists_lineAt text offset
  rw [cut.scan_eq, cut.place_eq]
  rfl

end RemoteKeys.Text
