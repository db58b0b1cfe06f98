import RemoteKeys.Proofs.Diagnostic.CutLine
import RemoteKeys.Proofs.Text.Numeral

/-!
# The latest time of a trace

A trace may name no time that the clock does not reach. Times are written in milliseconds and the
clock counts a thousand ticks for each; the latest time that is read is a thousandth of the latest
one with that many ticks.

## Main result

`limitExact_iff`: a last sample at a time of 64 bits is read up to `timeLimitMs` and too late from
there on. Its ticks do not fit the clock only from a time on that is a thousand times as late, and
up to there the limit is wrong.

## Proof strategy

Behind lines that are a trace, a line of two words is read word by word. A numeral's value is known
whatever its length, and comparing it with the limit is all that is done with it.
-/

namespace RemoteKeys.Trace

open Text

variable {source above line below time reading : List Char} {offset n : Nat} {t : Trace}
  {r : Option Word}

/-- The line has two words, and the lines above it are a trace. -/
structure SampleLine (above line : List Char) (t : Trace) (time reading : List Char) : Prop where
  in_order : read above = .ok t
  two_words : words (line.takeWhile (· ≠ '#')) = [time, reading]

/-- The time is too late exactly when its ticks do not fit the clock. -/
def LimitExact (source time : List Char) (n : Nat) : Prop :=
  (∃ word : Slice, word.chars = time ∧ read source = .error (.lateTime word)) ↔
    lastTick < n * ticksPerMilli

/-! ### Reading the words of a line -/

theorem readTime_of_isNumeral {word : Slice} (numeral : IsNumeral word.chars n) : readTime word =
    if n ≤ timeLimitMs then .ok n
    else .error (if n < 2 ^ 64 then .lateTime word else .badTime word) :=
  numeral.read_eq fun _ within => Nat.lt_of_le_of_lt within (by decide)

/-! ### Reading on from the lines above -/

theorem reached_le {earliest : Nat} (from_earliest : earliest ≤ n)
    (passed : ∀ x ∈ t, x.timeMs ≤ n) :
    reached earliest t ≤ n := by
  induction t generalizing earliest with
  | nil => exact from_earliest
  | cons x later ih =>
    obtain ⟨first, others⟩ := List.forall_mem_cons.mp passed
    exact ih first others

namespace SampleLine

private theorem words_eq (sample : SampleLine above line t time reading) :
    words (contentText line) = [time, reading] := by
  rw [contentText, words_trim, sample.two_words]

private theorem isContent (sample : SampleLine above line t time reading) :
    IsContent (contentText line) := by
  refine ⟨trim_eq_self_iff.mpr ⟨flush_trim _, tight_trim _⟩, fun nothing => ?_⟩
  have none_there := sample.words_eq
  rw [nothing, words_nil] at none_there
  cases none_there

theorem exists_words (sample : SampleLine above line t time reading) : ∃ first second : Slice,
    first.chars = time ∧ second.chars = reading ∧
      ∀ earliest, readSample earliest (⟨byteLength above, line⟩ : Slice).content = (do
        let timeMs ← readTime first
        if timeMs < earliest then throw (.earlierTime (⟨byteLength above, line⟩ : Slice).content)
        return { timeMs, reading := ← readReading second }) := by
  have proper : IsContent (⟨byteLength above, line⟩ : Slice).content.chars := sample.isContent
  obtain ⟨first, second, found, first_word, second_word⟩ :=
    (exists_fields?_iff proper).mpr sample.words_eq
  refine ⟨first, second, first_word, second_word, fun earliest => ?_⟩
  rw [readSample, found]

/-- The file is at fault where reading the line is. -/
theorem read_eq_error {fault : Fault} (sample : SampleLine above line t time reading)
    (cut : LineAt source offset above line below)
    (failed : readSample (reached 0 t) (⟨byteLength above, line⟩ : Slice).content = .error fault) :
    read source = .error fault := by
  obtain ⟨others, -, read_next⟩ := exists_read_at cut sample.isContent.2 sample.in_order
  rw [read_next, failed]
  rfl

/-- Where nothing follows the line, its sample is the last one of the trace. -/
theorem read_eq_ok (sample : SampleLine above line t time reading)
    (cut : LineAt source offset above line below)
    (last : contentTexts below = []) (numeral : IsNumeral time n) (within : n ≤ timeLimitMs)
    (spelled : Spells reading r) (passed : ∀ x ∈ t, x.timeMs ≤ n) :
    read source = .ok (t ++ [⟨n, r⟩]) := by
  obtain ⟨others, texts, read_next⟩ := exists_read_at cut sample.isContent.2 sample.in_order
  have fits : n < 2 ^ 64 := Nat.lt_of_le_of_lt within (by decide)
  have value : numeral? time = some n := by rw [numeral.numeral?_eq, if_pos fits]
  have taken : readSample (reached 0 t) (⟨byteLength above, line⟩ : Slice).content = .ok ⟨n, r⟩ :=
    (readSample_ok_iff sample.isContent).mpr
      ⟨⟨time, reading, sample.words_eq, ⟨value, within⟩, spelled⟩,
        reached_le (Nat.zero_le n) passed⟩
  have nothing : others = [] := List.map_eq_nil_iff.mp (texts.trans last)
  rw [read_next, taken, nothing]
  rfl

/-- A time behind the limit is what is wrong with the file. -/
theorem exists_time_fault (sample : SampleLine above line t time reading)
    (cut : LineAt source offset above line below) (numeral : IsNumeral time n)
    (late : timeLimitMs < n) :
    ∃ word : Slice, word.chars = time ∧
      read source = .error (if n < 2 ^ 64 then .lateTime word else .badTime word) := by
  obtain ⟨first, second, rfl, -, reads⟩ := sample.exists_words
  refine ⟨first, rfl, sample.read_eq_error cut ?_⟩
  rw [reads, readTime_of_isNumeral numeral, if_neg (Nat.not_le.mpr late)]
  rfl

end SampleLine

/--
A trace that ends with a sample at `n` milliseconds, where `n` has 64 bits and everything else is in
order. Up to 18446744073709 the sample is read, and the clock shows its time in ticks. From there on
it is too late. The limit is that of the clock outside of a range: the clock shows all times up to
18446744073709551.
-/
theorem limitExact_iff (cut : LineAt source offset above line below)
    (last : contentTexts below = []) (sample : SampleLine above line t time reading)
    (numeral : IsNumeral time n) (fits : n < 2 ^ 64) (spelled : Spells reading r)
    (passed : ∀ x ∈ t, x.timeMs ≤ n) :
    (n ≤ 18446744073709 →
        read source = .ok (t ++ [⟨n, r⟩]) ∧ (Instant.ofMillis n).ticks = n * ticksPerMilli) ∧
      (18446744073709 < n → ∃ word : Slice, word.chars = time ∧
        read source = .error (.lateTime word)) ∧
      (LimitExact source time n ↔ n ≤ 18446744073709 ∨ 18446744073709551 < n) := by
  have limit : timeLimitMs = 18446744073709 := by decide
  have taken (within : n ≤ 18446744073709) : read source = .ok (t ++ [⟨n, r⟩]) :=
    sample.read_eq_ok cut last numeral (limit ▸ within) spelled passed
  have late (behind : 18446744073709 < n) :
      ∃ word : Slice, word.chars = time ∧ read source = .error (.lateTime word) := by
    simpa only [if_pos fits] using sample.exists_time_fault cut numeral (limit ▸ behind)
  have shown_iff : lastTick < n * ticksPerMilli ↔ 18446744073709551 < n := by
    simp only [lastTick, ticksPerMilli]
    omega
  have late_iff :
      (∃ word : Slice, word.chars = time ∧ read source = .error (.lateTime word)) ↔
        18446744073709 < n := by
    refine ⟨?_, late⟩
    rintro ⟨_, -, failed⟩
    by_contra within
    rw [taken (Nat.le_of_not_lt within)] at failed
    cases failed
  refine ⟨fun within =>
    ⟨taken within, Instant.ticks_ofMillis_of_le (ticks_le_lastTick (limit ▸ within))⟩, late, ?_⟩
  -- Between the two bounds a time is too late for the reader, and not for the clock.
  rw [LimitExact, late_iff, shown_iff]
  omega

/-- A sample at the latest time that is read, with lines above and below it. -/
theorem limitExact_iff_latest :
    let above := "# key 17\n5 fail\n".toList
    let line := "\t18_446_744_073_709 0x1f # down".toList
    let below := "\n\n# up".toList
    (read (above ++ line ++ below) = .ok [⟨5, none⟩, ⟨18446744073709, some 31⟩] ∧
        (Instant.ofMillis 18446744073709).ticks = 18446744073709000) ∧
      LimitExact (above ++ line ++ below) "18_446_744_073_709".toList 18446744073709 := by
  intro above line below
  have cut : LineAt (above ++ line ++ below) (byteLength above) above line below :=
    ⟨rfl, .inr (by decide), by decide, .inr (by decide), Nat.le_refl _, .inr (by decide)⟩
  have sample : SampleLine above line [⟨5, none⟩] "18_446_744_073_709".toList "0x1f".toList :=
    ⟨by decide +kernel, by decide +kernel⟩
  have numeral : IsNumeral "18_446_744_073_709".toList 18446744073709 :=
    isNumeral_iff.mpr (by decide +kernel)
  have spelled : Spells "0x1f".toList (some 31) :=
    show numeral? "0x1f".toList = some 31 by decide +kernel
  obtain ⟨taken, -, exact_iff⟩ :=
    limitExact_iff cut (by decide +kernel) sample numeral (by decide) spelled (by decide)
  exact ⟨taken (by decide), exact_iff.mpr (by decide)⟩

/-- The clock shows the first time behind the limit. -/
theorem not_limitExact_first_late :
    let source := "18446744073710 1\n".toList
    read source = .error (.lateTime ⟨0, "18446744073710".toList⟩) ∧
      18446744073710 * ticksPerMilli ≤ lastTick ∧
      ¬ LimitExact source "18446744073710".toList 18446744073710 := by
  intro source
  have failed : read source = .error (.lateTime ⟨0, "18446744073710".toList⟩) := by decide +kernel
  have shown : 18446744073710 * ticksPerMilli ≤ lastTick := by decide
  refine ⟨failed, shown, fun exact => ?_⟩
  exact Nat.not_lt.mpr shown (exact.mp ⟨_, rfl, failed⟩)

end RemoteKeys.Trace
