import Mathlib.Data.List.Forall2
import RemoteKeys.Proofs.Except
import RemoteKeys.Proofs.Text.Words
import RemoteKeys.Trace.File

/-!
# The grammar of trace files

A trace file has one sample a line, each of two words, and its times never go back. This module says
so without slices, trimming or faults, and shows that reading accepts the trace files alone, and
gives their samples line by line.

## Main result

`Trace.read_iff_isTraceFile`: a text is read as a trace exactly when it is a file of that trace. Its
times are in order, and none is past the end of the clock.

## Proof strategy

Trimming takes no word off a line, so that a content has the words of its line, and the code's cut
behind the first word finds the second where there are exactly two. By induction over the contents,
the time that the next sample must reach is the one of the sample before it.
-/

namespace RemoteKeys.Trace

open Text

/-- The text stands for what was read: for a word, or for a failed read. -/
def Spells (text : List Char) : Option Word → Prop
  | none => text = "fail".toList
  | some word => numeral? text = some word.toNat

/-- The line has two words, a time and what was read then. -/
def IsSample (line : List Char) (x : Sample) : Prop :=
  ∃ time reading, words line = [time, reading] ∧
    (numeral? time = some x.timeMs ∧ x.timeMs ≤ timeLimitMs) ∧ Spells reading x.reading

/-- The lines of a text up to their comments, without those that are blank. -/
def sampleLines (source : List Char) : List (List Char) :=
  ((source.splitOn '\n').map fun line => line.takeWhile (· ≠ '#')).filter fun line =>
    !line.all isBlank

/-- The text is a file of that trace. -/
structure IsTraceFile (source : List Char) (t : Trace) : Prop where
  lines : List.Forall₂ IsSample (sampleLines source) t
  /-- No time is before the one on the line above. -/
  ascending : List.IsChain (· ≤ ·) (t.map Sample.timeMs)

/-! ### The two words of a line -/

theorem exists_fields?_iff {content : Slice} (proper : IsContent content.chars) {a b : List Char} :
    (∃ time reading, fields? content = some (time, reading) ∧ time.chars = a ∧ reading.chars = b) ↔
      words content.chars = [a, b] := by
  obtain ⟨flush, tight⟩ := trim_eq_self_iff.mp proper.1
  obtain ⟨time, rest, cut⟩ : ∃ time rest, content.cutWord = (time, rest) := ⟨_, _, rfl⟩
  have split := words_of_cutWord flush proper.2 cut
  -- What follows the first word starts with none of its blanks, and ends with the content.
  have rest_flush : Flush rest.chars := by
    cases cut
    exact flush_dropWhile _
  have rest_tight : Tight rest.chars := by
    cases cut
    have first := content.takeWhile_append_dropWhile (!isBlank ·)
    have behind := (content.dropWhile (!isBlank ·)).takeWhile_append_dropWhile isBlank
    rw [← first, ← behind] at tight
    exact tight.of_append.of_append
  have one : words rest.chars = [b] ↔ _ := words_eq_singleton_iff rest_flush rest_tight
  rw [split, List.cons.injEq, one]
  constructor
  · rintro ⟨time', reading, found, rfl, rfl⟩
    simp only [fields?, cut] at found
    split at found
    next second =>
      cases found
      exact ⟨rfl, rfl, second.1, by simpa using second.2⟩
    · cases found
  · rintro ⟨rfl, rfl, nonempty, letters⟩
    have second : ¬ rest.IsEmpty ∧ rest.chars.all (!isBlank ·) = true :=
      ⟨nonempty, by simpa using letters⟩
    exact ⟨time, rest, by simp only [fields?, cut, if_pos second], rfl, rfl⟩

private theorem readTime_ok_iff {time : Slice} {n : Nat} :
    readTime time = .ok n ↔ numeral? time.chars = some n ∧ n ≤ timeLimitMs := by
  unfold readTime
  cases read : numeral? time.chars with
  | none => simp
  | some m =>
    by_cases within : m ≤ timeLimitMs
    · simp only [within, if_true, Except.ok.injEq, Option.some.injEq]
      exact ⟨fun same => ⟨same, same ▸ within⟩, fun h => h.1⟩
    · simp only [within, if_false, reduceCtorEq, false_iff]
      rintro ⟨⟨⟩, small⟩
      exact within small

private theorem readReading_ok_iff {text : Slice} {reading : Option Word} :
    readReading text = .ok reading ↔ Spells text.chars reading := by
  unfold readReading
  by_cases fail : text.chars = failWord.toList
  · -- The word of a failed read is no numeral.
    have none_there : numeral? failWord.toList = none := by decide
    rw [if_pos fail, Except.ok.injEq, fail]
    cases reading with
    | none => exact ⟨fun _ => rfl, fun _ => rfl⟩
    | some word => simp [Spells, none_there]
  · have not_failed : ¬ Spells text.chars none := fail
    rw [if_neg fail]
    cases read : numeral? text.chars with
    | none =>
      cases reading with
      | none => simpa using not_failed
      | some word => simp [Spells, read]
    | some n =>
      by_cases fits : n < wordLimit
      · simp only [fits, if_true, Except.ok.injEq]
        cases reading with
        | none => simp [not_failed]
        | some word =>
          rw [Spells, read, Option.some.injEq, Option.some.injEq, ← BitVec.toNat_inj,
            BitVec.toNat_ofNat, Nat.mod_eq_of_lt (by simp only [wordLimit] at fits; omega)]
      · simp only [fits, if_false, reduceCtorEq, false_iff]
        cases reading with
        | none => exact not_failed
        | some word =>
          rw [Spells, read, Option.some.injEq]
          rintro rfl
          exact fits word.isLt

/-! ### One line -/

theorem readSample_ok_iff {earliest : Nat} {content : Slice} {x : Sample}
    (proper : IsContent content.chars) :
    readSample earliest content = .ok x ↔ IsSample content.chars x ∧ earliest ≤ x.timeMs := by
  have two_words := fun a b => exists_fields?_iff proper (a := a) (b := b)
  unfold readSample
  constructor
  · intro returned
    split at returned
    · cases returned
    next time reading found =>
      obtain ⟨timeMs, time_read, returned⟩ := Except.bind_eq_ok_iff.mp returned
      dsimp only at returned
      split at returned
      · cases returned
      next in_order =>
        obtain ⟨word, reading_read, made⟩ := Except.bind_eq_ok_iff.mp returned
        cases made
        refine ⟨⟨time.chars, reading.chars, ?_, readTime_ok_iff.mp time_read, ?_⟩,
          Nat.le_of_not_lt in_order⟩
        · exact (two_words _ _).mp ⟨time, reading, found, rfl, rfl⟩
        · exact readReading_ok_iff.mp reading_read
  · rintro ⟨⟨_, _, words, timed, spelled⟩, in_order⟩
    obtain ⟨time, reading, found, rfl, rfl⟩ := (two_words _ _).mpr words
    rw [found]
    refine Except.bind_eq_ok_iff.mpr ⟨x.timeMs, readTime_ok_iff.mpr timed, ?_⟩
    dsimp only
    rw [if_neg (Nat.not_lt.mpr in_order)]
    exact Except.bind_eq_ok_iff.mpr ⟨x.reading, readReading_ok_iff.mpr spelled, rfl⟩

/-! ### All lines -/

private theorem readContents_eq_ok_iff {earliest : Nat} {contents : List Slice} {t : Trace}
    (proper : ∀ content ∈ contents, IsContent content.chars) :
    readContents earliest contents = .ok t ↔
      List.Forall₂ IsSample (contents.map Slice.chars) t ∧
        List.IsChain (· ≤ ·) (earliest :: t.map Sample.timeMs) := by
  -- Over the contents: a sample that was read is the earliest that the next one may be.
  induction contents generalizing earliest t with
  | nil =>
    constructor
    · rintro ⟨⟩
      exact ⟨.nil, .singleton _⟩
    · rintro ⟨read, -⟩
      cases read
      rfl
  | cons content rest ih =>
    obtain ⟨content_proper, rest_proper⟩ := List.forall_mem_cons.mp proper
    rw [readContents, Except.bind_eq_ok_iff]
    constructor
    · rintro ⟨x, first, returned⟩
      obtain ⟨later, others, made⟩ := Except.bind_eq_ok_iff.mp returned
      cases made
      obtain ⟨sample, in_order⟩ := (readSample_ok_iff content_proper).mp first
      obtain ⟨samples, ascending⟩ := (ih rest_proper).mp others
      exact ⟨.cons sample samples, .cons_cons in_order ascending⟩
    · rintro ⟨read, ascending⟩
      obtain ⟨x, later, sample, samples, rfl⟩ := List.forall₂_cons_left_iff.mp read
      obtain ⟨in_order, rest_ascending⟩ := List.isChain_cons_cons.mp ascending
      have first := (readSample_ok_iff content_proper).mpr ⟨sample, in_order⟩
      have others := (ih rest_proper).mpr ⟨samples, rest_ascending⟩
      exact ⟨x, first, Except.bind_eq_ok_iff.mpr ⟨later, others, rfl⟩⟩

/-! ### Whole files -/

private theorem contentTexts_eq_map (source : List Char) :
    contentTexts source = (sampleLines source).map trim := by
  have trimmed : ((source.splitOn '\n').map fun line => trim (line.takeWhile (· ≠ '#'))) =
      ((source.splitOn '\n').map fun line => line.takeWhile (· ≠ '#')).map trim := by
    rw [List.map_map]
    rfl
  rw [contentTexts, trimmed, List.filter_map, sampleLines]
  congr 1
  apply List.filter_congr
  intro line _
  rw [Bool.eq_iff_iff]
  simp [trim_eq_nil_iff]

private theorem isSample_trim_iff {line : List Char} {x : Sample} :
    IsSample (trim line) x ↔ IsSample line x := by
  rw [IsSample, IsSample, words_trim]

theorem read_ok_iff {source : List Char} {t : Trace} :
    read source = .ok t ↔ IsTraceFile source t := by
  -- Any time may be the first one.
  have from_zero : List.IsChain (· ≤ ·) (0 :: t.map Sample.timeMs) ↔
      List.IsChain (· ≤ ·) (t.map Sample.timeMs) := by
    cases t with
    | nil => simp
    | cons x later => simp
  rw [read, readContents_eq_ok_iff fun content mem => isContent_of_mem_contents mem,
    map_chars_contents, contentTexts_eq_map, List.forall₂_map_left_iff, from_zero]
  simp only [isSample_trim_iff]
  exact ⟨fun ⟨lines, ascending⟩ => ⟨lines, ascending⟩, fun file => ⟨file.lines, file.ascending⟩⟩

private theorem timeMs_le_of_isSample {lines : List (List Char)} {t : Trace}
    (read : List.Forall₂ IsSample lines t) :
    ∀ x ∈ t, x.timeMs ≤ timeLimitMs := by
  induction read with
  | nil => simp
  | cons sample _ ih =>
    obtain ⟨_, _, -, ⟨-, within⟩, -⟩ := sample
    exact List.forall_mem_cons.mpr ⟨within, ih⟩

/-- No trace that was read has a time behind the latest one that a file may name. -/
theorem within_of_read {source : List Char} {t : Trace} (returned : read source = .ok t) :
    ∀ x ∈ t, x.timeMs ≤ timeLimitMs := timeMs_le_of_isSample (read_ok_iff.mp returned).lines

theorem ticks_le_lastTick {timeMs : Nat} (within : timeMs ≤ timeLimitMs) :
    timeMs * ticksPerMilli ≤ lastTick := by
  simp only [timeLimitMs, lastTick, ticksPerMilli] at within ⊢
  omega

/-- A text is read as a trace exactly when it is a file of that trace. Its times never go back then,
and the clock shows every one of them in ticks. -/
theorem read_iff_isTraceFile (source : List Char) (t : Trace) :
    (read source = .ok t ↔ IsTraceFile source t) ∧
      (read source = .ok t → (t.map Sample.timeMs).Pairwise (· ≤ ·) ∧
        (∀ x ∈ t, x.timeMs * ticksPerMilli ≤ lastTick) ∧
        t.times.map Instant.ticks = t.map fun x => x.timeMs * ticksPerMilli) := by
  refine ⟨read_ok_iff, fun returned => ?_⟩
  have shown : ∀ x ∈ t, x.timeMs * ticksPerMilli ≤ lastTick := fun x mem =>
    ticks_le_lastTick (within_of_read returned x mem)
  refine ⟨List.isChain_iff_pairwise.mp (read_ok_iff.mp returned).ascending, shown, ?_⟩
  rw [times, List.map_map]
  apply List.map_congr_left
  intro x mem
  exact Instant.ticks_ofMillis_of_le (shown x mem)

/-- Comments, blanks of all kinds, a failed read, equal times and the latest time that may be
named. -/
theorem read_iff_isTraceFile_noisy :
    let source :=
      "# key 17\n\n  7\u00a00x8_8000 # down\r\n7 fail\n\u3000# up\n18446744073709\t+42".toList
    let t : Trace := [⟨7, some 0x88000⟩, ⟨7, none⟩, ⟨18446744073709, some 42⟩]
    read source = .ok t ∧ IsTraceFile source t ∧ (t.map Sample.timeMs).Pairwise (· ≤ ·) ∧
      t.times.map Instant.ticks = [7000, 7000, 18446744073709000] := by
  intro source t
  have returned : read source = .ok t := by decide +kernel
  obtain ⟨exact_file, orderly⟩ := read_iff_isTraceFile source t
  obtain ⟨ascending, -, ticks⟩ := orderly returned
  exact ⟨returned, exact_file.mp returned, ascending, ticks⟩

end RemoteKeys.Trace
