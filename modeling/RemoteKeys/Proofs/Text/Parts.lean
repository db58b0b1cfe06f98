import RemoteKeys.Proofs.Text.Words

/-!
# Parts of a text

A slice that is cut out of another one is a part of it: the characters in front of it account for
the bytes between the two starts. Every way of cutting gives a part, parts of parts are parts, and
the lines of a text are parts of it, so that no offset has to be followed from the text down to a
word.

## Main statements

- `Slice.PartOf.trans`: what is cut out of a part is cut out of the whole.
- `marks_of_mem_contents`: a content is marked by its span, as is every part of it.
- `contents_append`: the contents of a text that goes on behind a line end.
-/

namespace RemoteKeys.Text

/-- The slice is cut out of the other one, and starts where it says. -/
def Slice.PartOf (s t : Slice) : Prop :=
  ∃ before after, t.chars = before ++ s.chars ++ after ∧ s.start = t.start + byteLength before

/-- The ends of the span are on characters of the source, and what is between them is the marked
text. It stands on one line, in front of any comment there. -/
def Span.Marks (span : Span) (source marked : List Char) : Prop :=
  ∃ above front rest, source = above ++ front ++ marked ++ rest ∧
    (above = [] ∨ above.getLast? = some '\n') ∧ (∀ c ∈ front ++ marked, c ≠ '\n' ∧ c ≠ '#') ∧
    span = ⟨byteLength (above ++ front), byteLength (above ++ front ++ marked)⟩

namespace Slice

/-! ### Cutting gives parts -/

theorem PartOf.refl (s : Slice) : s.PartOf s := ⟨[], [], by simp, by simp⟩

theorem PartOf.trans {s t u : Slice} (inner : s.PartOf t) (outer : t.PartOf u) : s.PartOf u := by
  obtain ⟨a, b, whole, start⟩ := inner
  obtain ⟨a', b', outer_whole, outer_start⟩ := outer
  refine ⟨a' ++ a, b ++ b', ?_, ?_⟩
  · rw [outer_whole, whole]
    simp
  · rw [start, outer_start, byteLength_append, Nat.add_assoc]

theorem PartOf.start_le {s t : Slice} (part : s.PartOf t) : t.start ≤ s.start := by
  obtain ⟨before, -, -, start⟩ := part
  rw [start]
  exact Nat.le_add_right ..

private theorem takeWhile_partOf (s : Slice) (p : Char → Bool) : (s.takeWhile p).PartOf s :=
  ⟨[], s.chars.dropWhile p, List.takeWhile_append_dropWhile.symm, rfl⟩

private theorem dropWhile_partOf (s : Slice) (p : Char → Bool) : (s.dropWhile p).PartOf s :=
  ⟨s.chars.takeWhile p, [], by simp [dropWhile], rfl⟩

private theorem tail_partOf (s : Slice) : s.tail.PartOf s := by
  cases chars : s.chars with
  | nil =>
    simp only [tail, chars]
    exact .refl s
  | cons c rest => exact ⟨[c], [], by simp [tail, chars], by simp [tail, chars]⟩

theorem trimStart_partOf (s : Slice) : s.trimStart.PartOf s := s.dropWhile_partOf isBlank

theorem trimEnd_partOf (s : Slice) : s.trimEnd.PartOf s :=
  ⟨[], s.chars.rtakeWhile isBlank, List.rdropWhile_append_rtakeWhile.symm, rfl⟩

theorem content_partOf (line : Slice) : line.content.PartOf (line.takeWhile (· ≠ '#')) :=
  (trimEnd_partOf _).trans (trimStart_partOf _)

theorem partOf_of_cut? {s before after : Slice} {c : Char} (cut : s.cut? c = some (before, after)) :
    before.PartOf s ∧ after.PartOf s := by
  unfold cut? at cut
  split at cut
  · cases cut
    exact ⟨s.takeWhile_partOf _, (tail_partOf _).trans (s.dropWhile_partOf _)⟩
  · cases cut

theorem start_of_cut? {s before after : Slice} {c : Char} (cut : s.cut? c = some (before, after)) :
    before.start = s.start := by
  unfold cut? at cut
  split at cut
  · cases cut
    rfl
  · cases cut

theorem partOf_of_cutWord {s first rest : Slice} (cut : s.cutWord = (first, rest)) :
    first.PartOf s ∧ rest.PartOf s := by
  cases cut
  exact ⟨s.takeWhile_partOf _, (trimStart_partOf _).trans (s.dropWhile_partOf _)⟩

end Slice

/-! ### Lines are parts of their text -/

theorem exists_of_mem_linesFrom {start : Nat} {ls : List (List Char)} {line : Slice}
    (mem : line ∈ linesFrom start ls) : line.chars ∈ ls ∧ ∃ above rest,
      ['\n'].intercalate ls = above ++ line.chars ++ rest ∧
        (above = [] ∨ above.getLast? = some '\n') ∧ line.start = start + byteLength above := by
  -- Over the lines: each that is in front of the one in question stands above it, with its line
  -- end.
  induction ls generalizing start with
  | nil => cases mem
  | cons first others ih =>
    rcases List.mem_cons.mp mem with rfl | later
    · refine ⟨List.mem_cons_self, [], ?_⟩
      cases others with
      | nil => exact ⟨[], by simp⟩
      | cons next others => exact ⟨'\n' :: ['\n'].intercalate (next :: others), by simp⟩
    · obtain ⟨listed, above, rest, whole, ends, starts⟩ := ih later
      have nonempty : others ≠ [] := List.ne_nil_of_mem listed
      refine ⟨List.mem_cons_of_mem _ listed, first ++ '\n' :: above, rest, ?_, Or.inr ?_, ?_⟩
      · rw [List.intercalate_cons_of_ne_nil nonempty, whole]
        simp
      · rcases ends with rfl | ends
        · simp
        · simp [List.getLast?_append, List.getLast?_cons, ends]
      · rw [starts, byteLength_append, byteLength_cons, show '\n'.utf8Size = 1 from rfl]
        omega

theorem Span.Marks.of_partOf {s t : Slice} {source : List Char}
    (marks : t.span.Marks source t.chars) (part : s.PartOf t) : s.span.Marks source s.chars := by
  obtain ⟨above, front, rest, whole, ends, plain, span⟩ := marks
  obtain ⟨before, after, cut, start⟩ := part
  refine ⟨above, front ++ before, after ++ rest, ?_, ends, ?_, ?_⟩
  · rw [whole, cut]
    simp
  · intro c mem
    apply plain c
    rw [cut]
    simp only [List.mem_append] at mem ⊢
    tauto
  · have starts : t.start = byteLength (above ++ front) := congrArg Span.start span
    -- Both ends move by what is in front of the part.
    simp only [Slice.span, Slice.stop, start, starts, byteLength_append, Span.mk.injEq]
    omega

/-- A line is marked by its span, up to its comment. -/
theorem marks_of_mem_lines {source : List Char} {line : Slice} (mem : line ∈ lines source) :
    (line.takeWhile (· ≠ '#')).span.Marks source (line.takeWhile (· ≠ '#')).chars := by
  obtain ⟨listed, above, rest, whole, ends, start⟩ := exists_of_mem_linesFrom mem
  rw [List.intercalate_splitOn] at whole
  have cut := line.takeWhile_append_dropWhile (· ≠ '#')
  refine ⟨above, [], (line.dropWhile (· ≠ '#')).chars ++ rest, ?_, ends, ?_, ?_⟩
  · rw [whole, ← cut]
    simp
  · intro c mem
    rw [List.nil_append] at mem
    have here : c ∈ line.chars := (List.takeWhile_sublist _).subset mem
    refine ⟨?_, by simpa using List.mem_takeWhile_imp mem⟩
    rw [List.splitOn_eq_splitOnP] at listed
    simpa using forall_of_mem_splitOnP listed c here
  · rw [Nat.zero_add] at start
    simp [Slice.span, Slice.stop, Slice.takeWhile, start]

theorem marks_of_mem_contents {source : List Char} {content : Slice}
    (mem : content ∈ contents source) :
    content.span.Marks source content.chars := by
  obtain ⟨line, listed, rfl⟩ := List.mem_map.mp (List.mem_filter.mp mem).1
  exact (marks_of_mem_lines listed).of_partOf line.content_partOf

theorem Span.Marks.bounds {span : Span} {source marked : List Char}
    (marks : span.Marks source marked) :
    span.start ≤ span.stop ∧ span.stop ≤ byteLength source := by
  obtain ⟨above, front, rest, rfl, -, -, rfl⟩ := marks
  simp only [byteLength_append]
  omega

/-! ### Texts that go on -/

private theorem linesFrom_append {ls : List (List Char)} (nonempty : ls ≠ []) (start : Nat)
    (ms : List (List Char)) : linesFrom start (ls ++ ms) =
      linesFrom start ls ++ linesFrom (start + byteLength (['\n'].intercalate ls) + 1) ms := by
  induction ls generalizing start with
  | nil => exact absurd rfl nonempty
  | cons first others ih =>
    cases others with
    | nil => simp [linesFrom]
    | cons next others =>
      have behind := ih (List.cons_ne_nil next others) (start + byteLength first + 1)
      have length : start + byteLength (['\n'].intercalate (first :: next :: others)) + 1 =
          start + byteLength first + 1 + byteLength (['\n'].intercalate (next :: others)) + 1 := by
        rw [List.intercalate_cons_cons, byteLength_append, byteLength_append, byteLength_cons,
          show '\n'.utf8Size = 1 from rfl, byteLength_nil]
        omega
      have head (lines : List (List Char)) : linesFrom start (first :: lines) =
          ⟨start, first⟩ :: linesFrom (start + byteLength first + 1) lines := rfl
      rw [length, List.cons_append, head, behind, head, List.cons_append]

theorem lines_append_cons (a q : List Char) :
    lines (a ++ '\n' :: q) = lines a ++ linesFrom (byteLength a + 1) (q.splitOn '\n') := by
  rw [lines, List.splitOn_append_cons_self, linesFrom_append (List.splitOn_ne_nil '\n' a),
    List.intercalate_splitOn, Nat.zero_add, lines]

theorem contents_append {p : List Char} (ends : p = [] ∨ p.getLast? = some '\n') (q : List Char) :
    contents (p ++ q) = contents p ++ contentsFrom (byteLength p) q := by
  rcases ends with rfl | ends
  · rfl
  · obtain ⟨a, rfl⟩ := List.getLast?_eq_some_iff.mp ends
    have going_on (q : List Char) :
        contents (a ++ '\n' :: q) = contents a ++ contentsFrom (byteLength a + 1) q := by
      rw [contents, lines_append_cons, List.map_append, List.filter_append, ← contents,
        contentsFrom]
    -- Behind the last line end there is one more line, with nothing on it.
    have nothing : contentsFrom (byteLength a + 1) [] = [] := rfl
    have alone := going_on []
    rw [nothing, List.append_nil] at alone
    rw [List.append_assoc, List.singleton_append, going_on, alone, byteLength_append]
    rfl

theorem le_start_of_mem_contentsFrom {start : Nat} {text : List Char} {content : Slice}
    (mem : content ∈ contentsFrom start text) : start ≤ content.start := by
  obtain ⟨line, listed, rfl⟩ := List.mem_map.mp (List.mem_filter.mp mem).1
  obtain ⟨-, above, -, -, -, starts⟩ := exists_of_mem_linesFrom listed
  have part := line.content_partOf.trans (line.takeWhile_partOf _)
  have before := part.start_le
  omega

end RemoteKeys.Text
