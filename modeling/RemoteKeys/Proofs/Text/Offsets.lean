import RemoteKeys.Proofs.Text.Place

/-!
# Lines by byte offsets

Seen from outside, a place is a matter of counting: which bytes of the text a line feed stands at,
and which of them are in front of the byte in question. The walk over the lines never asks that.
This module cuts a text around the line of any byte, one inside a character or behind the end
included, and counts on either side of the cuts.

## Main statements

- `exists_lineAt`: every byte belongs to a line.
- `LineAt.countP_feeds`, `LineAt.lineStart_eq`, `LineAt.lineStop_eq`: what is counted where the text
  is cut so.
- `LineAt.countP_charsFrom`: the characters of the line that start in front of the byte.
-/

namespace RemoteKeys.Text

/-- The characters of a text that starts at byte `start`, each with the byte that it starts at. -/
def charsFrom (start : Nat) : List Char → List (Nat × Char)
  | [] => []
  | c :: rest => (start, c) :: charsFrom (start + c.utf8Size) rest

/-- The bytes at which the line feeds stand, in a text that starts at byte `start`. -/
def feedsFrom (start : Nat) (text : List Char) : List Nat :=
  ((charsFrom start text).filter fun p => p.2 = '\n').map Prod.fst

def feeds (text : List Char) : List Nat := feedsFrom 0 text

/-- The byte behind the last line feed in front of a byte; the start of the text, where there is
none. -/
def lineStart (text : List Char) (offset : Nat) : Nat :=
  match ((feeds text).filter (· < offset)).getLast? with
  | some feed => feed + 1
  | none => 0

/-- The first line feed at a byte or behind it; the end of the text, where there is none. -/
def lineStop (text : List Char) (offset : Nat) : Nat :=
  ((feeds text).find? (offset ≤ ·)).getD (byteLength text)

/-! ### Every byte belongs to a line -/

theorem exists_lineAt (text : List Char) (offset : Nat) :
    ∃ above line below, LineAt text offset above line below := by
  -- Over the characters, with the bytes counted from each of them.
  induction text generalizing offset with
  | nil => exact ⟨[], [], [], rfl, .inl rfl, List.not_mem_nil, .inl rfl, Nat.zero_le _, .inl rfl⟩
  | cons c rest ih =>
    by_cases feed : c = '\n'
    · subst feed
      cases offset with
      | zero =>
        exact ⟨[], [], '\n' :: rest, rfl, .inl rfl, List.not_mem_nil, .inr rfl, Nat.le_refl _,
          .inr (Nat.zero_le _)⟩
      | succ offset =>
        -- The line feed is above the line that is found behind it.
        obtain ⟨above, line, below, split, whole, inner, ended, reached, here⟩ := ih offset
        have size : '\n'.utf8Size = 1 := rfl
        refine ⟨'\n' :: above, line, below,
          by rw [split]; rfl, .inr ?_, inner, ended, ?_, here.imp id fun inside => ?_⟩
        · rcases whole with rfl | ends
          · rfl
          · rw [List.getLast?_cons, ends, Option.getD_some]
        · rw [byteLength_cons, size]
          omega
        · rw [List.cons_append, byteLength_cons, size]
          omega
    · obtain ⟨above, line, below, split, whole, inner, ended, reached, here⟩ :=
        ih (offset - c.utf8Size)
      cases above with
      | nil =>
        -- The character stands on the line itself.
        refine ⟨[], c :: line, below, by rw [split]; rfl, .inl rfl, ?_, ended, Nat.zero_le _,
          here.imp id fun inside => ?_⟩
        · rw [List.mem_cons, not_or]
          exact ⟨Ne.symm feed, inner⟩
        · rw [List.nil_append] at inside ⊢
          rw [byteLength_cons]
          omega
      | cons d above =>
        have ends := whole.resolve_left (List.cons_ne_nil d above)
        have positive := d.utf8Size_pos
        rw [byteLength_cons] at reached
        refine ⟨c :: d :: above, line, below, by rw [split]; rfl, .inr ?_, inner, ended, ?_,
          here.imp id fun inside => ?_⟩
        · rw [List.getLast?_cons_cons]
          exact ends
        · rw [byteLength_cons, byteLength_cons]
          omega
        · rw [List.cons_append, byteLength_cons]
          omega

/-! ### Characters and their bytes -/

private theorem charsFrom_append (start : Nat) (a b : List Char) :
    charsFrom start (a ++ b) = charsFrom start a ++ charsFrom (start + byteLength a) b := by
  induction a generalizing start with
  | nil => rfl
  | cons c a ih =>
    rw [List.cons_append, charsFrom, ih, charsFrom, byteLength_cons, Nat.add_assoc,
      List.cons_append]

private theorem mem_charsFrom {start : Nat} {text : List Char} {p : Nat × Char}
    (mem : p ∈ charsFrom start text) :
    p.2 ∈ text ∧ start ≤ p.1 ∧ p.1 < start + byteLength text := by
  induction text generalizing start with
  | nil => cases mem
  | cons c rest ih =>
    have positive := c.utf8Size_pos
    rw [byteLength_cons]
    rcases List.mem_cons.mp mem with rfl | later
    · exact ⟨List.mem_cons_self, Nat.le_refl start,
        Nat.lt_add_of_pos_right (Nat.add_pos_left positive _)⟩
    · obtain ⟨listed, behind, before⟩ := ih later
      exact ⟨List.mem_cons_of_mem c listed, by omega, by omega⟩

private theorem feedsFrom_append (start : Nat) (a b : List Char) :
    feedsFrom start (a ++ b) = feedsFrom start a ++ feedsFrom (start + byteLength a) b := by
  rw [feedsFrom, charsFrom_append, List.filter_append, List.map_append, ← feedsFrom, ← feedsFrom]

private theorem mem_feedsFrom {start feed : Nat} {text : List Char}
    (mem : feed ∈ feedsFrom start text) :
    start ≤ feed ∧ feed < start + byteLength text := by
  obtain ⟨p, found, rfl⟩ := List.mem_map.mp mem
  exact (mem_charsFrom (List.mem_filter.mp found).1).2

private theorem feedsFrom_of_not_mem {text : List Char} (inner : '\n' ∉ text) (start : Nat) :
    feedsFrom start text = [] := by
  rw [feedsFrom, List.filter_eq_nil_iff.mpr, List.map_nil]
  intro p mem feed
  rw [decide_eq_true_eq] at feed
  exact inner (feed ▸ (mem_charsFrom mem).1)

private theorem length_feedsFrom (start : Nat) (text : List Char) :
    (feedsFrom start text).length = text.count '\n' := by
  induction text generalizing start with
  | nil => rfl
  | cons c rest ih =>
    have later := ih (start + c.utf8Size)
    rw [feedsFrom, List.length_map] at later ⊢
    rw [charsFrom, List.filter_cons, List.count_cons]
    by_cases feed : c = '\n' <;> simp [feed] at later ⊢ <;> exact later

private theorem getLast?_feedsFrom_append (a : List Char) :
    (feedsFrom 0 (a ++ ['\n'])).getLast? = some (byteLength a) := by
  rw [feedsFrom_append, Nat.zero_add]
  exact List.getLast?_concat

private theorem charsBefore_eq_countP (offset start : Nat) (text : List Char) :
    charsBefore offset start text = (charsFrom start text).countP fun p => p.1 < offset := by
  induction text generalizing start with
  | nil => rfl
  | cons c rest ih =>
    rw [charsBefore, charsFrom, List.countP_cons, ih]
    by_cases before : start < offset
    · simp [before]
    · -- Nor does any character behind it start in front of the offset.
      have others : (charsFrom (start + c.utf8Size) rest).countP (fun p => p.1 < offset) = 0 := by
        refine List.countP_eq_zero.mpr fun p mem => ?_
        have behind := (mem_charsFrom mem).2.1
        rw [decide_eq_true_eq]
        omega
      simp [before, others]

/-! ### On either side of the cuts -/

namespace LineAt

variable {text above line below : List Char} {offset : Nat}

private theorem feeds_eq (cut : LineAt text offset above line below) :
    feeds text = feedsFrom 0 above ++ feedsFrom (byteLength (above ++ line)) below := by
  rw [feeds, cut.split, feedsFrom_append, feedsFrom_append, feedsFrom_of_not_mem cut.inner,
    List.append_nil, Nat.zero_add]

private theorem lt_offset (cut : LineAt text offset above line below) {feed : Nat}
    (mem : feed ∈ feedsFrom 0 above) :
    feed < offset := by
  have before := (mem_feedsFrom mem).2
  have reached := cut.reached
  omega

private theorem offset_le (cut : LineAt text offset above line below) {feed : Nat}
    (mem : feed ∈ feedsFrom (byteLength (above ++ line)) below) : offset ≤ feed := by
  rcases cut.here with rfl | inside
  · cases mem
  · exact Nat.le_trans inside (mem_feedsFrom mem).1

private theorem filter_feeds (cut : LineAt text offset above line below) :
    (feeds text).filter (· < offset) = feedsFrom 0 above := by
  rw [cut.feeds_eq, List.filter_append, List.filter_eq_self.mpr, List.filter_eq_nil_iff.mpr,
    List.append_nil]
  · intro feed mem
    simpa using cut.offset_le mem
  · intro feed mem
    simpa using cut.lt_offset mem

theorem countP_feeds (cut : LineAt text offset above line below) :
    (feeds text).countP (· < offset) = above.count '\n' := by
  rw [List.countP_eq_length_filter, cut.filter_feeds, length_feedsFrom]

theorem lineStart_eq (cut : LineAt text offset above line below) :
    lineStart text offset = byteLength above := by
  rw [lineStart, cut.filter_feeds]
  rcases cut.whole with rfl | ends
  · rfl
  · obtain ⟨a, rfl⟩ := List.getLast?_eq_some_iff.mp ends
    rw [getLast?_feedsFrom_append, byteLength_append]
    rfl

theorem lineStop_eq (cut : LineAt text offset above line below) :
    lineStop text offset = byteLength (above ++ line) := by
  have none_above : (feedsFrom 0 above).find? (offset ≤ ·) = none := by
    refine List.find?_eq_none.mpr fun feed mem => ?_
    simpa using cut.lt_offset mem
  rw [lineStop, cut.feeds_eq, List.find?_append, none_above, Option.none_or]
  rcases cut.ended with rfl | feed
  · rw [cut.split, List.append_nil]
    rfl
  · -- What is below the line starts with the line feed that ends it.
    obtain ⟨rest, rfl⟩ := List.head?_eq_some_iff.mp feed
    have inside := cut.here.resolve_left (List.cons_ne_nil _ _)
    have first : feedsFrom (byteLength (above ++ line)) ('\n' :: rest) =
        byteLength (above ++ line) :: feedsFrom (byteLength (above ++ line) + 1) rest := rfl
    rw [first, List.find?_cons_of_pos (by simpa using inside), Option.getD_some]

private theorem countP_eq_zero_of_outside {chars : List (Nat × Char)} {first last : Nat}
    (outside : ∀ p ∈ chars, p.1 < first ∨ last ≤ p.1) :
    chars.countP (fun p => first ≤ p.1 ∧ p.1 < last ∧ p.1 < offset) = 0 := by
  refine List.countP_eq_zero.mpr fun p mem => ?_
  have out := outside p mem
  rw [decide_eq_true_eq]
  omega

theorem countP_charsFrom (cut : LineAt text offset above line below) :
    (charsFrom 0 text).countP
        (fun p => byteLength above ≤ p.1 ∧ p.1 < byteLength (above ++ line) ∧ p.1 < offset) =
      charsBefore offset (byteLength above) line := by
  rw [cut.split, charsFrom_append, charsFrom_append, Nat.zero_add, Nat.zero_add, List.countP_append,
    List.countP_append, charsBefore_eq_countP]
  -- What is above the line ends where it starts, and what is below starts where it ends.
  rw [countP_eq_zero_of_outside fun p mem => .inl (by simpa using (mem_charsFrom mem).2.2),
    countP_eq_zero_of_outside fun p mem => .inr (mem_charsFrom mem).2.1, Nat.zero_add, Nat.add_zero]
  refine List.countP_congr fun p mem => ?_
  obtain ⟨-, behind, before⟩ := mem_charsFrom mem
  rw [← byteLength_append] at before
  simp only [behind, before, true_and]

end LineAt

end RemoteKeys.Text
