import RemoteKeys.Proofs.HeldKey.Repeat

/-!
# How far apart the reports of a held key are

Whoever samples a held key once a period is told of it at every so many samples, as many as it takes
periods to cover the quiet period. The least quiet period that is admitted covers two of them, so
that a quiet period of just two periods leaves one sample out, and every longer one leaves out two
or more.

## Main result

`Config.held_key_spacing`: the outcomes of such a run, and the quiet periods that keep its reports
three samples apart.

## Proof strategy

What a sample comes to depends on the last report alone (`Receiver.sample_repeat`), and where that
was at a multiple of the spacing, so is the next one. The samples are put together by induction.
-/

namespace RemoteKeys

/-- No two keys are reported less than that many samples apart. -/
def KeysApart (least : Nat) (outcomes : List Outcome) : Prop :=
  ∀ i j a b, i < j → outcomes[i]? = some (.key a) → outcomes[j]? = some (.key b) → i + least ≤ j

/-! ### Samples at every multiple -/

section Multiples

variable {due : Nat → Prop} [DecidablePred due] {code : Code} {n samples : Nat}

private theorem getElem?_eq_key_iff {i : Nat} {a : Code} :
    ((List.range n).map fun i => if due i then Outcome.key code else .held code)[i]? =
      some (.key a) ↔
      i < n ∧ due i ∧ code = a := by
  by_cases inside : i < n
  · rw [List.getElem?_map, List.getElem?_range inside, Option.map_some, Option.some.injEq]
    by_cases due_i : due i <;> simp [inside, due_i]
  · simp [inside]

private theorem keysApart_iff (multiples : ∀ i < n, due i ↔ samples ∣ i) (positive : 0 < samples)
    (reached : samples < n) {least : Nat} :
    KeysApart least ((List.range n).map fun i => if due i then Outcome.key code else .held code) ↔
      least ≤ samples := by
  simp only [KeysApart, getElem?_eq_key_iff]
  constructor
  · intro apart
    have nonempty : 0 < n := Nat.lt_trans positive reached
    have first_due : due 0 := (multiples 0 nonempty).mpr (dvd_zero samples)
    have next_due : due samples := (multiples samples reached).mpr dvd_rfl
    have between :=
      apart 0 samples code code positive ⟨nonempty, first_due, rfl⟩ ⟨reached, next_due, rfl⟩
    omega
  · rintro le i j _ _ before ⟨inside_i, due_i, -⟩ ⟨inside_j, due_j, -⟩
    have between : samples ∣ j - i :=
      Nat.dvd_sub ((multiples j inside_j).mp due_j) ((multiples i inside_i).mp due_i)
    have far := Nat.le_of_dvd (Nat.sub_pos_of_lt before) between
    omega

end Multiples

/-! ### Quiet periods -/

section Quiet

variable {gap period samples last i : Nat}

private theorem Instant.later_lt_later_iff_of_le (cover : LeastCover gap period samples)
    (t : Instant) (behind : last ≤ i) : t.later (i * period) < (t.later (last * period)).later gap ↔
      i < last + samples ∧ t.ticks + i * period < lastTick := by
  obtain ⟨k, rfl⟩ := Nat.exists_eq_add_of_le behind
  rw [Nat.add_mul, ← later_later, later_lt_later_iff cover, ticks_later]
  omega

private theorem not_due_iff {t : Nat} (reported : samples ∣ last ∨ lastTick ≤ t + last * period)
    (behind : last < i) (near : i ≤ last + samples) : ¬ (samples ∣ i ∨ lastTick ≤ t + i * period) ↔
      i < last + samples ∧ t + i * period < lastTick := by
  have onwards : last * period ≤ i * period := Nat.mul_le_mul_right period (Nat.le_of_lt behind)
  rw [not_or, Nat.not_le]
  refine and_congr_left fun before_end => ?_
  -- The clock had not ended at the report.
  have multiple : samples ∣ last := reported.resolve_right (by omega)
  -- So the sample is at a multiple only where it is at the next one.
  obtain ⟨k, rfl⟩ := Nat.exists_eq_add_of_lt behind
  rw [Nat.add_assoc, Nat.dvd_add_right multiple]
  constructor
  · intro between
    have not_next : k + 1 ≠ samples := fun next => between (next ▸ dvd_rfl)
    omega
  · intro close all
    have far := Nat.le_of_dvd (Nat.succ_pos k) all
    omega

end Quiet

variable {ρ ε : Type} [Register ρ ε]

private theorem Receiver.sampleAll_repeat {s : Setup} {raw : Word} {code : Code} {register : ρ}
    {period samples : Nat} (steady : Register.Steady s.minor raw register)
    (decoded : s.decode raw = some code) (cover : LeastCover s.gap period samples) (t : Instant)
    {last i : Nat} (reported : samples ∣ last ∨ lastTick ≤ t.ticks + last * period)
    (behind : last < i) (near : i ≤ last + samples) (positive : 0 < samples) (left : Nat) :
    ((⟨s, s.holdoff.report code (t.later (last * period)), register⟩ : Receiver ρ).sampleAll
      ((List.range' i left).map fun i => t.later (i * period))).1 =
      (List.range' i left).map fun i =>
        if samples ∣ i ∨ lastTick ≤ t.ticks + i * period then .key code else .held code := by
  -- By the number of samples that are left, from any report.
  induction left generalizing last i register with
  | zero => rfl
  | succ left ih =>
    have quiet_iff : t.later (i * period) < (t.later (last * period)).later s.gap ↔
        ¬ (samples ∣ i ∨ lastTick ≤ t.ticks + i * period) := by
      rw [not_due_iff reported behind near,
        Instant.later_lt_later_iff_of_le cover t (Nat.le_of_lt behind)]
    rw [List.range'_succ, List.map_cons, List.map_cons, sampleAll, sample_repeat steady decoded]
    by_cases due : samples ∣ i ∨ lastTick ≤ t.ticks + i * period
    · have elapsed := mt quiet_iff.mp (not_not_intro due)
      rw [if_neg elapsed, if_pos due]
      exact congrArg (List.cons _) (ih (steady.iterate 1) due (Nat.lt_succ_self i) (by omega))
    · have inside := ((not_due_iff reported behind near).mp due).1
      rw [if_pos (quiet_iff.mpr due), if_neg due]
      exact congrArg (List.cons _)
        (ih (steady.iterate 1) reported (Nat.lt_succ_of_lt behind) inside)

/-! ### Main result -/

/--
A held key on an admitted polled card that is sampled once a period, from any time on. It is
reported at the first sample and then at every multiple of the number of periods that cover the
quiet period, so that reports are that many samples apart and no more. That is two where the quiet
period is just two sampling periods, and three at least where it is longer. Any sample that is made
when the clock has ended is reported.
-/
theorem Config.held_key_spacing {c : Config} {s : Setup} (admitted : c.setup = .ok s)
    (polled : c.trigger = .polled) :
    let period := 1000 / c.rate * ticksPerMilli
    let samples := s.gapMs ⌈/⌉ (1000 / c.rate)
    (samples = 2 ∧ s.gapMs = 2 * (1000 / c.rate) ∨ 3 ≤ samples ∧ 2 * (1000 / c.rate) < s.gapMs) ∧
    ∀ raw : Word, ¬ raw.Meets c.lockMask → ∃ code, s.decode raw = some code ∧
      ∀ register : ρ, Register.Steady c.minor raw register → ∀ (t : Instant) (n : Nat),
        let outcomes := ((Receiver.start s register).sampleAll
          ((List.range n).map fun i => t.later (i * period))).1
        (outcomes = (List.range n).map fun i =>
          if samples ∣ i ∨ lastTick ≤ t.ticks + i * period then .key code else .held code) ∧
        ((∀ i < n, t.ticks + i * period < lastTick) → samples < n →
          ∀ least, KeysApart least outcomes ↔ least ≤ samples) := by
  intro period samples
  have two_samples : 2 ≤ samples := two_le_ceilDiv admitted polled
  have some_samples : 0 < samples := Nat.lt_of_lt_of_le Nat.two_pos two_samples
  refine ⟨?_, fun raw unlocked => ?_⟩
  · obtain ⟨positive, least⟩ := two_periods_le_gap admitted polled
    have covered : samples ≤ 2 ↔ s.gapMs ≤ 1000 / c.rate * 2 := ceilDiv_le_iff_le_mul positive
    omega
  obtain ⟨minor, -⟩ := setup_eq_ok admitted
  obtain ⟨code, decoded⟩ := exists_decode_of_unlocked admitted unlocked
  refine ⟨code, decoded, ?_⟩
  intro register steady t n outcomes
  rw [← minor] at steady
  have run : outcomes = (List.range n).map fun i =>
      if samples ∣ i ∨ lastTick ≤ t.ticks + i * period then .key code else .held code := by
    cases n with
    | zero => rfl
    | succ n =>
      have first : samples ∣ 0 ∨ lastTick ≤ t.ticks + 0 * period := Or.inl (dvd_zero _)
      simp only [outcomes, List.range_eq_range', List.range'_succ, List.map_cons, if_pos first,
        Receiver.sampleAll, Receiver.start, Receiver.sample_fresh steady decoded]
      exact congrArg (List.cons _) (Receiver.sampleAll_repeat (steady.iterate 1) decoded
        (leastCover_of_setup admitted polled) t first Nat.one_pos (by omega) some_samples n)
  refine ⟨run, fun before_end reached least => ?_⟩
  rw [run]
  exact keysApart_iff (fun i inside =>
    or_iff_left (Nat.not_le.mpr (before_end i inside))) some_samples reached

/-- Half a second is far more than two periods of 83 milliseconds. -/
theorem held_key_spacing_bt848 : bt848Config.setup = .ok bt848 ∧
    KeysApart 7 ((Receiver.start bt848 ({ word := 0x1500 } : Latch)).sampleAll
      ((List.range 100).map fun i => Instant.zero.later (i * 83000))).1 := by
  have admitted : bt848Config.setup = .ok bt848 := by decide +kernel
  obtain ⟨code, -, run⟩ := (Config.held_key_spacing (ρ := Latch) admitted rfl).2 0x1500 (by decide)
  obtain ⟨-, apart⟩ := run { word := 0x1500 } (Latch.steady rfl _) Instant.zero 100
  have before_end (i : Nat) (inside : i < 100) : Instant.zero.ticks + i * 83000 < lastTick := by
    rw [Instant.ticks_zero, lastTick]
    omega
  exact ⟨admitted, (apart before_end (by decide) 7).mpr (by decide)⟩

/-- A quiet period of two periods is admitted, and every other sample of a held key is reported. -/
theorem not_keysApart_two_periods :
    let c : Config := { mask := 0x1f00, gapMs := 200, rate := 10 }
    c.trigger = .polled ∧ ¬ (0x1500 : Word).Meets c.lockMask ∧ ∃ s : Setup, c.setup = .ok s ∧
      ¬ KeysApart 3 ((Receiver.start s ({ word := 0x1500 } : Latch)).sampleAll
        ((List.range 3).map fun i =>
          (Instant.ofTicks 1000000).later (i * (1000 / c.rate * ticksPerMilli)))).1 := by
  intro c
  let s : Setup :=
    ⟨0, ⟨0x1f00, by decide⟩, 0, .polled 10 200 0 (by decide) (by decide), by decide⟩
  have outcomes : ((Receiver.start s ({ word := 0x1500 } : Latch)).sampleAll
      ((List.range 3).map fun i =>
        (Instant.ofTicks 1000000).later (i * (1000 / c.rate * ticksPerMilli)))).1 =
        [.key 21, .held 21, .key 21] := by decide +kernel
  refine ⟨rfl, by decide, s, by decide +kernel, ?_⟩
  rw [outcomes]
  intro apart
  exact absurd (apart 0 2 21 21 (by decide) rfl rfl) (by decide)

end RemoteKeys
