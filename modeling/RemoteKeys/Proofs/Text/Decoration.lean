import Mathlib.Data.List.Forall2
import RemoteKeys.Proofs.Text.Place

/-!
# Decorated lines

Behind the content of a line there may be blanks and a comment. They take up bytes, so that
everything below such a line is moved, and each line by an amount of its own. What is counted in
lines and columns stays where it is.

## Main statement

- `forall₂_contents_of_decorated`: two texts whose lines differ in what stands behind their contents
  have the same contents, one by one, on the same lines and at the same columns.

## Proof strategy

The two lists of lines are walked side by side, with what is above them: as many lines, and in the
second text some bytes more. A slice and the same slice moved by these bytes then stand at the same
place, and so do all parts of them.
-/

namespace RemoteKeys.Text

/-- Blanks with a comment behind them, either of which may be missing. -/
def IsDecoration (text : List Char) : Prop :=
  ∃ blanks comment, text = blanks ++ comment ∧ (∀ c ∈ blanks, isBlank c = true) ∧
    (comment = [] ∨ comment.head? = some '#') ∧ '\n' ∉ text

/-- The second text has the lines of the first one, each with a decoration of its own at its end. -/
def Decorated (source decorated : List Char) : Prop :=
  List.Forall₂ (fun line line' => ∃ decoration, IsDecoration decoration ∧
    line' = line ++ decoration)
    (source.splitOn '\n') (decorated.splitOn '\n')

/-- The slice stands on the line that has so many above it, behind `front` and in front of any
comment. -/
def Slice.OnLine (text : List Char) (number : Nat) (front : List Char) (s : Slice) : Prop :=
  ∃ above rest, text = above ++ front ++ s.chars ++ rest ∧ IsLines above ∧
    above.count '\n' = number ∧
    (∀ c ∈ front ++ s.chars, c ≠ '\n' ∧ c ≠ '#') ∧ s.start = byteLength (above ++ front)

/-- The slice, so many bytes further on. -/
def Slice.move (k : Nat) (s : Slice) : Slice := ⟨s.start + k, s.chars⟩

/-- The slice stands in the first text where it stands in the second one when it is moved. -/
def SamePlace (source decorated : List Char) (k : Nat) (s : Slice) : Prop :=
  ∃ number front, s.OnLine source number front ∧ (s.move k).OnLine decorated number front

namespace Slice

/-! ### Moved slices -/

@[simp] theorem chars_move (k : Nat) (s : Slice) : (s.move k).chars = s.chars := rfl

private theorem takeWhile_move (k : Nat) (s : Slice) (p : Char → Bool) :
    (s.move k).takeWhile p = (s.takeWhile p).move k := rfl

private theorem dropWhile_move (k : Nat) (s : Slice) (p : Char → Bool) :
    (s.move k).dropWhile p = (s.dropWhile p).move k := by
  simp only [dropWhile, move, Nat.add_right_comm]

private theorem tail_move (k : Nat) (s : Slice) : (s.move k).tail = s.tail.move k := by
  obtain ⟨start, chars⟩ := s
  cases chars with
  | nil => rfl
  | cons c rest => simp only [tail, move, Nat.add_right_comm]

theorem trimStart_move (k : Nat) (s : Slice) : (s.move k).trimStart = s.trimStart.move k :=
  dropWhile_move k s isBlank

theorem trimEnd_move (k : Nat) (s : Slice) : (s.move k).trimEnd = s.trimEnd.move k := rfl

private theorem trim_move (k : Nat) (s : Slice) : (s.move k).trim = s.trim.move k := by
  rw [trim, trimStart_move, trimEnd_move, trim]

theorem cut?_move (k : Nat) (s : Slice) (c : Char) :
    (s.move k).cut? c = (s.cut? c).map fun p => (p.1.move k, p.2.move k) := by
  unfold cut?
  rw [chars_move, takeWhile_move, dropWhile_move, tail_move]
  split <;> rfl

theorem cutWord_move (k : Nat) (s : Slice) :
    (s.move k).cutWord = (s.cutWord.1.move k, s.cutWord.2.move k) := by
  simp only [cutWord, takeWhile_move, dropWhile_move, trimStart_move]

/-! ### Slices on a line -/

variable {text front : List Char} {number : Nat} {s t : Slice}

theorem OnLine.marks (on : s.OnLine text number front) : s.span.Marks text s.chars := by
  obtain ⟨above, rest, split, whole, -, plain, start⟩ := on
  refine ⟨above, front, rest, split, whole, plain, ?_⟩
  rw [span, stop, start, byteLength_append (above ++ front)]

theorem OnLine.line_column (on : s.OnLine text number front) :
    (place text s.start).line = number + 1 ∧ (place text s.start).column = front.length + 1 := by
  obtain ⟨above, rest, split, whole, rfl, plain, start⟩ := on
  have inner : '\n' ∉ front := fun mem => (plain '\n' (List.mem_append_left _ mem)).1 rfl
  rw [start, split, List.append_assoc, place_append whole inner]
  exact ⟨rfl, rfl⟩

private theorem OnLine.part {before after : List Char} (on : t.OnLine text number front)
    (cut : t.chars = before ++ s.chars ++ after) (start : s.start = t.start + byteLength before) :
    s.OnLine text number (front ++ before) := by
  obtain ⟨above, rest, split, whole, count, plain, begins⟩ := on
  refine ⟨above, after ++ rest, ?_, whole, count, fun c mem => plain c ?_, ?_⟩
  · rw [split, cut]
    simp only [List.append_assoc]
  · rw [cut, ← List.append_assoc, ← List.append_assoc]
    exact List.mem_append_left _ mem
  · rw [start, begins, ← List.append_assoc, byteLength_append (above ++ front)]

end Slice

theorem SamePlace.of_partOf {source decorated : List Char} {k : Nat} {s t : Slice}
    (same : SamePlace source decorated k t) (part : s.PartOf t) :
    SamePlace source decorated k s := by
  obtain ⟨number, front, on, moved_on⟩ := same
  obtain ⟨before, after, cut, start⟩ := part
  have moved_start : (s.move k).start = (t.move k).start + byteLength before := by
    simp only [Slice.move, start, Nat.add_right_comm]
  exact ⟨number, front ++ before, on.part cut start, moved_on.part cut moved_start⟩

/-! ### One line -/

private theorem IsDecoration.newline_not_mem {decoration : List Char}
    (decorates : IsDecoration decoration) :
    '\n' ∉ decoration := by
  obtain ⟨blanks, comment, -, -, -, unbroken⟩ := decorates
  exact unbroken

private theorem isDecoration_iff {text : List Char} : IsDecoration text ↔
    (text.dropWhile isBlank = [] ∨ (text.dropWhile isBlank).head? = some '#') ∧ '\n' ∉ text := by
  constructor
  · rintro ⟨blanks, comment, rfl, blank, begins, unbroken⟩
    -- A comment starts with no blank, so that it is all that is left behind the blanks.
    have left : comment.dropWhile isBlank = comment := by
      rcases begins with rfl | hash
      · rfl
      · obtain ⟨rest, rfl⟩ := List.head?_eq_some_iff.mp hash
        rfl
    rw [List.dropWhile_append_of_pos blank, left]
    exact ⟨begins, unbroken⟩
  · rintro ⟨begins, unbroken⟩
    exact ⟨text.takeWhile isBlank, text.dropWhile isBlank,
      List.takeWhile_append_dropWhile.symm, fun c => List.mem_takeWhile_imp, begins, unbroken⟩

instance (text : List Char) : Decidable (IsDecoration text) := decidable_of_iff' _ isDecoration_iff

private theorem exists_decoration_iff {line line' : List Char} :
    (∃ decoration, IsDecoration decoration ∧ line' = line ++ decoration) ↔
      line <+: line' ∧ IsDecoration (line'.drop line.length) := by
  constructor
  · rintro ⟨decoration, decorates, rfl⟩
    rw [List.drop_left]
    exact ⟨List.prefix_append line decoration, decorates⟩
  · rintro ⟨⟨decoration, rfl⟩, decorates⟩
    rw [List.drop_left] at decorates
    exact ⟨decoration, decorates, rfl⟩

instance (source decorated : List Char) : Decidable (Decorated source decorated) :=
  have (line line' : List Char) :
      Decidable (∃ decoration, IsDecoration decoration ∧ line' = line ++ decoration) :=
    decidable_of_iff' _ exists_decoration_iff
  inferInstanceAs (Decidable (List.Forall₂ _ _ _))

private theorem takeWhile_append_decoration {decoration : List Char}
    (decorates : IsDecoration decoration) (line : List Char) :
    ∃ blanks, (∀ c ∈ blanks, isBlank c = true) ∧
      (line ++ decoration).takeWhile (· ≠ '#') = line.takeWhile (· ≠ '#') ++ blanks := by
  obtain ⟨blanks, comment, rfl, blank, begins, -⟩ := decorates
  rw [List.takeWhile_append]
  split
  next uncommented =>
    have plain : line.takeWhile (· ≠ '#') = line :=
      (List.takeWhile_prefix _).eq_of_length uncommented
    have unmarked : ∀ c ∈ blanks, decide (c ≠ '#') = true := by
      intro c mem
      rw [decide_eq_true_eq]
      rintro rfl
      exact absurd (blank '#' mem) (by decide)
    have ends : comment.takeWhile (· ≠ '#') = [] := by
      rcases begins with rfl | hash
      · rfl
      · obtain ⟨rest, rfl⟩ := List.head?_eq_some_iff.mp hash
        rfl
    refine ⟨blanks, blank, ?_⟩
    rw [plain, List.takeWhile_append_of_pos unmarked, ends, List.append_nil]
  · exact ⟨[], nofun, (List.append_nil _).symm⟩

private theorem trimEnd_append_blanks {blanks : List Char} (blank : ∀ c ∈ blanks, isBlank c = true)
    (text : List Char) :
    trimEnd (text ++ blanks) = trimEnd text := by
  rw [trimEnd, List.reverse_append, List.dropWhile_append_of_pos fun c mem =>
    blank c (List.mem_reverse.mp mem), trimEnd]

/-- More blanks at the end of a slice are trimmed off it, and its start stays, unless it is all
blank. -/
theorem Slice.trim_append_blanks {blanks : List Char} (blank : ∀ c ∈ blanks, isBlank c = true)
    {s : Slice} (there : ¬ s.trim.IsEmpty) :
    (⟨s.start, s.chars ++ blanks⟩ : Slice).trim = s.trim := by
  have front : (s.chars ++ blanks).takeWhile isBlank = s.chars.takeWhile isBlank := by
    rw [List.takeWhile_append, if_neg]
    intro whole
    have all_blank : s.chars.takeWhile isBlank = s.chars :=
      (List.takeWhile_prefix _).eq_of_length whole
    exact there (trim_eq_nil_iff.mpr (List.takeWhile_eq_self_iff.mp all_blank))
  have rear : (s.chars ++ blanks).dropWhile isBlank = s.chars.dropWhile isBlank ++ blanks := by
    rw [List.dropWhile_append, if_neg]
    intro empty
    exact there (trim_eq_nil_iff.mpr (List.dropWhile_eq_nil_iff.mp (List.isEmpty_iff.mp empty)))
  simp only [trim, trimStart, trimEnd, dropWhile, front, rear, trimEnd_append_blanks blank]

/-- The second line is the first one, decorated and further on, and as many lines are above it. -/
def LinePair (source decorated : List Char) (line line' : Slice) : Prop :=
  ∃ number decoration k, IsDecoration decoration ∧
    line' = ⟨line.start + k, line.chars ++ decoration⟩ ∧
    (line.takeWhile (· ≠ '#')).OnLine source number [] ∧
      (line'.takeWhile (· ≠ '#')).OnLine decorated number []

/-- The second content is the first one further on, at the same place. -/
def ContentPair (source decorated : List Char) (content content' : Slice) : Prop :=
  ∃ k, content' = content.move k ∧ SamePlace source decorated k content

variable {source decorated : List Char}

private theorem LinePair.content_pair {line line' : Slice}
    (pair : LinePair source decorated line line') :
    (line.content.IsEmpty ∧ line'.content.IsEmpty) ∨
      ¬ line.content.IsEmpty ∧ ¬ line'.content.IsEmpty ∧
        ContentPair source decorated line.content line'.content := by
  obtain ⟨number, decoration, k, decorates, rfl, on, moved_on⟩ := pair
  obtain ⟨blanks, blank, taken⟩ := takeWhile_append_decoration decorates line.chars
  -- Up to their comments the lines differ in blanks alone.
  let t := line.takeWhile (· ≠ '#')
  have uncommented : (⟨line.start + k, line.chars ++ decoration⟩ : Slice).takeWhile (· ≠ '#') =
      ⟨(t.move k).start, (t.move k).chars ++ blanks⟩ := congrArg (Slice.mk _) taken
  rw [uncommented] at moved_on
  have content : (⟨line.start + k, line.chars ++ decoration⟩ : Slice).content =
      (⟨(t.move k).start, (t.move k).chars ++ blanks⟩ : Slice).trim :=
        congrArg Slice.trim uncommented
  rw [content]
  by_cases empty : t.trim.IsEmpty
  · refine Or.inl ⟨empty, trim_eq_nil_iff.mpr fun c mem => ?_⟩
    exact (List.mem_append.mp mem).elim (trim_eq_nil_iff.mp empty c) (blank c)
  · have moved_there : ¬ (t.move k).trim.IsEmpty := by rwa [Slice.trim_move]
    rw [Slice.trim_append_blanks blank moved_there, Slice.trim_move]
    refine Or.inr ⟨empty, empty, k, rfl, ?_⟩
    obtain ⟨before, after, cut, start⟩ : t.trim.PartOf t := line.content_partOf
    have moved_cut : (t.move k).chars ++ blanks = before ++ (t.trim.move k).chars ++
        (after ++ blanks) := by
      rw [Slice.chars_move, Slice.chars_move, cut, List.append_assoc]
    have moved_start : (t.trim.move k).start = (t.move k).start + byteLength before :=
      (congrArg (· + k) start).trans (Nat.add_right_comm ..)
    exact ⟨number, [] ++ before, on.part cut start, moved_on.part moved_cut moved_start⟩

/-! ### All lines -/

private theorem onLine_takeWhile {text above line rest : List Char} (whole : IsLines above)
    (inner : '\n' ∉ line) (split : text = above ++ line ++ rest) :
    ((⟨byteLength above, line⟩ : Slice).takeWhile (· ≠ '#')).OnLine text (above.count '\n') [] := by
  have cut : line.takeWhile (· ≠ '#') ++ line.dropWhile (· ≠ '#') = line :=
    List.takeWhile_append_dropWhile
  refine ⟨above, line.dropWhile (· ≠ '#') ++ rest, ?_, whole, rfl, fun c mem => ⟨?_, ?_⟩, ?_⟩
  · calc text = above ++ (line.takeWhile (· ≠ '#') ++ line.dropWhile (· ≠ '#')) ++ rest := by
          rw [cut, split]
      _ = above ++ [] ++ line.takeWhile (· ≠ '#') ++ (line.dropWhile (· ≠ '#') ++ rest) := by
        simp only [List.append_nil, List.append_assoc]
  · rintro rfl
    exact inner ((List.takeWhile_sublist _).subset mem)
  · simpa using List.mem_takeWhile_imp mem
  · rw [List.append_nil]
    rfl

/-- The walk over the lines goes past a line and its end. -/
theorem walk_cons (above line : List Char) {others : List (List Char)} (more : others ≠ []) :
    above ++ ['\n'].intercalate (line :: others) = above ++ line ++ ['\n'] ++
      ['\n'].intercalate others ∧
      linesFrom (byteLength above) (line :: others) =
        ⟨byteLength above, line⟩ :: linesFrom (byteLength (above ++ line ++ ['\n'])) others := by
  constructor
  · rw [List.intercalate_cons_of_ne_nil more, List.append_assoc, List.append_assoc,
      List.append_assoc]
  · rw [linesFrom, byteLength_append, byteLength_append]
    rfl

private theorem forall₂_linePair {ls ls' : List (List Char)} {above above' : List Char} {k : Nat}
    (pairs : List.Forall₂ (fun line line' => ∃ decoration, IsDecoration decoration ∧
      line' = line ++ decoration) ls ls')
    (inner : ∀ line ∈ ls, '\n' ∉ line) (whole : IsLines above) (whole' : IsLines above')
    (count : above'.count '\n' = above.count '\n')
    (further : byteLength above' = byteLength above + k) :
    List.Forall₂ (LinePair (above ++ ['\n'].intercalate ls) (above' ++ ['\n'].intercalate ls'))
      (linesFrom (byteLength above) ls) (linesFrom (byteLength above') ls') := by
  -- Over the lines, from any two texts above them that have as many lines and differ in `k` bytes.
  induction pairs generalizing above above' k with
  | nil => exact .nil
  | @cons line line' others others' pair pairs ih =>
    obtain ⟨decoration, decorates, rfl⟩ := pair
    obtain ⟨line_inner, others_inner⟩ := List.forall_mem_cons.mp inner
    have line_inner' : '\n' ∉ line ++ decoration :=
      List.not_mem_append line_inner decorates.newline_not_mem
    have head (rest rest' : List Char) :
        LinePair (above ++ line ++ rest) (above' ++ (line ++ decoration) ++ rest')
        ⟨byteLength above, line⟩ ⟨byteLength above', line ++ decoration⟩ := by
      refine ⟨above.count '\n', decoration, k, decorates,
        by rw [further], onLine_takeWhile whole line_inner rfl, ?_⟩
      rw [← count]
      exact onLine_takeWhile whole' line_inner' rfl
    cases pairs with
    | nil =>
      have alone := head [] []
      rw [List.append_nil, List.append_nil] at alone
      simpa [linesFrom] using alone
    | @cons next next' later later' pair pairs =>
      obtain ⟨text, walked⟩ := walk_cons above line (List.cons_ne_nil next later)
      obtain ⟨text', walked'⟩ :=
        walk_cons above' (line ++ decoration) (List.cons_ne_nil next' later')
      have here := head (['\n'] ++ ['\n'].intercalate (next :: later))
        (['\n'] ++ ['\n'].intercalate (next' :: later'))
      rw [← List.append_assoc, ← List.append_assoc] at here
      have below_count : (above' ++ (line ++ decoration) ++ ['\n']).count '\n' =
          (above ++ line ++ ['\n']).count '\n' := by
        simp only [List.count_append, List.count_eq_zero_of_not_mem line_inner, count,
          List.count_eq_zero_of_not_mem decorates.newline_not_mem]
      have below_further : byteLength (above' ++ (line ++ decoration) ++ ['\n']) =
          byteLength (above ++ line ++ ['\n']) + (k + byteLength decoration) := by
        simp only [byteLength_append, further]
        omega
      rw [text, text', walked, walked']
      have others_here :=
        ih others_inner (.inr List.getLast?_concat) (.inr List.getLast?_concat) below_count
        below_further
      exact .cons here others_here

private theorem forall₂_content_pair {lines lines' : List Slice}
    (pairs : List.Forall₂ (LinePair source decorated) lines lines') :
    List.Forall₂ (ContentPair source decorated)
      ((lines.map Slice.content).filter fun content => ¬ content.IsEmpty)
      ((lines'.map Slice.content).filter fun content => ¬ content.IsEmpty) := by
  induction pairs with
  | nil => exact .nil
  | cons pair _ ih =>
    rw [List.map_cons, List.map_cons]
    rcases pair.content_pair with ⟨empty, empty'⟩ | ⟨there, there', contents⟩
    · rw [List.filter_cons_of_neg (by simpa using empty),
        List.filter_cons_of_neg (by simpa using empty')]
      exact ih
    · rw [List.filter_cons_of_pos (by simpa using there),
        List.filter_cons_of_pos (by simpa using there')]
      exact .cons contents ih

/-- The contents of a text stay what and where they are when its lines are decorated. -/
theorem forall₂_contents_of_decorated (decorates : Decorated source decorated) :
    List.Forall₂ (ContentPair source decorated) (contents source) (contents decorated) := by
  have inner : ∀ line ∈ source.splitOn '\n', '\n' ∉ line := by
    intro line listed mem
    rw [List.splitOn_eq_splitOnP] at listed
    simpa using forall_of_mem_splitOnP listed '\n' mem
  have pairs := forall₂_linePair (k := 0) decorates inner (.inl rfl) (.inl rfl) rfl rfl
  rw [List.intercalate_splitOn, List.intercalate_splitOn] at pairs
  exact forall₂_content_pair pairs

end RemoteKeys.Text
