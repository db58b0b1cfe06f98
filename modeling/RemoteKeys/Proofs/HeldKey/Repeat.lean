import Mathlib.Algebra.Order.Floor.Div
import RemoteKeys.Proofs.Decode.Separation
import RemoteKeys.Proofs.NextKey.SamplingLoop

/-!
# A key that is held down

A polled card whose key is held down gives the same word at every sample. Its first code is
reported, and from then on everything depends on the report before: the code is held back for as
long as the quiet period covers the samples, and then reported again, which starts the quiet period
afresh. So the reports are as many samples apart as it takes sampling periods to cover the quiet
period.

## Main statements

- `Instant.later_lt_later_iff`: which samples after a report the quiet period still holds back.
- `Receiver.sample_fresh`, `Receiver.sample_repeat`: the first sample of a held key, and every later
  one.
- `Config.two_periods_le_gap`: no admitted quiet period is shorter than two sampling periods.
-/

namespace RemoteKeys

variable {ρ ε : Type}

/-- Every read of the register gives the same word, however often it has been read. -/
def Register.Steady [Register ρ ε] (minor : Nat) (raw : Word) (register : ρ) : Prop :=
  ∀ reads, (Register.read ((Register.afterRead minor)^[reads] register) minor).1 = .ok raw

/-- It takes that many periods to cover the gap, and no fewer. -/
structure LeastCover (gap period count : Nat) : Prop where
  short : ∀ i < count, i * period < gap
  covers : gap ≤ count * period

/-! ### Quiet periods in samples -/

private theorem leastCover_ceilDiv {gap period : Nat} (positive : 0 < period) :
    LeastCover gap period (gap ⌈/⌉ period) := by
  constructor
  · intro i before
    rw [← not_le, ceilDiv_le_iff_le_mul positive, not_le, Nat.mul_comm] at before
    exact before
  · rw [Nat.mul_comm, ← ceilDiv_le_iff_le_mul positive]

private theorem LeastCover.mul_right {gap period count : Nat} (cover : LeastCover gap period count)
    {scale : Nat} (positive : 0 < scale) : LeastCover (gap * scale) (period * scale) count := by
  constructor
  · intro i before
    rw [← Nat.mul_assoc]
    exact Nat.mul_lt_mul_of_pos_right (cover.short i before) positive
  · rw [← Nat.mul_assoc]
    exact Nat.mul_le_mul_right scale cover.covers

theorem Instant.later_zero (t : Instant) : t.later 0 = t := by
  ext
  have end_of_clock := t.ticks_le
  rw [ticks_later]
  omega

/-- The samples behind a report that are held back. Where the clock ends, the quiet period does. -/
theorem Instant.later_lt_later_iff {since : Instant} {gap period count i : Nat}
    (cover : LeastCover gap period count) :
    since.later (i * period) < since.later gap ↔
      i < count ∧ since.ticks + i * period < lastTick := by
  rw [lt_def, ticks_later, ticks_later]
  constructor
  · intro before
    refine ⟨?_, by omega⟩
    by_contra late
    have covered : gap ≤ i * period :=
      Nat.le_trans cover.covers (Nat.mul_le_mul_right period (Nat.le_of_not_lt late))
    omega
  · rintro ⟨early, inside⟩
    have uncovered := cover.short i early
    omega

private theorem Setup.exists_rate {s : Setup} (polled : s.trigger = .polled) :
    ∃ rate, s.rate? = some rate ∧ rateBounds.Admit rate ∧ Rate.leastGapMs rate ≤ s.gapMs := by
  unfold trigger at polled
  unfold rate? gapMs
  cases drive : s.drive with
  | polled rate gapMs invertMask rate_admitted gap_covers =>
    exact ⟨rate, rfl, rate_admitted, gap_covers⟩
  | interrupt =>
    rw [drive] at polled
    cases polled

namespace Config

variable {c : Config} {s : Setup}

private theorem rate_of_setup (admitted : c.setup = .ok s) (polled : c.trigger = .polled) :
    (2 ≤ c.rate ∧ c.rate ≤ 50) ∧ 2000 ≤ s.gapMs * c.rate := by
  have normalised := normalisedAs_of_setup admitted
  obtain ⟨-, has_rate, -⟩ := normalised.polled polled
  obtain ⟨rate, same, bounds, covers⟩ := Setup.exists_rate (normalised.card.2.2.2.trans polled)
  obtain rfl := Option.some.inj (has_rate.symm.trans same)
  exact ⟨bounds, (Rate.leastGapMs_le_iff (Nat.lt_of_lt_of_le Nat.two_pos bounds.1)).mp covers⟩

theorem period?_of_setup (admitted : c.setup = .ok s) (polled : c.trigger = .polled) :
    s.period? = some (1000 / c.rate * ticksPerMilli) := by
  obtain ⟨-, has_rate, -⟩ := (normalisedAs_of_setup admitted).polled polled
  obtain ⟨⟨fast, -⟩, -⟩ := rate_of_setup admitted polled
  rw [Setup.period?, Setup.periodMs?, has_rate, Option.map_some, Option.map_some, Rate.periodMs,
    if_neg (by omega)]

/-- The period is rounded down and the least gap up, so that no gap is shorter than two periods. -/
theorem two_periods_le_gap (admitted : c.setup = .ok s) (polled : c.trigger = .polled) :
    0 < 1000 / c.rate ∧ 2 * (1000 / c.rate) ≤ s.gapMs := by
  obtain ⟨⟨fast, slow⟩, covers⟩ := rate_of_setup admitted polled
  have positive : 0 < c.rate := by omega
  refine ⟨Nat.div_pos (by omega) positive, Nat.le_of_mul_le_mul_right ?_ positive⟩
  calc 2 * (1000 / c.rate) * c.rate
    _ = 2 * (1000 / c.rate * c.rate) := Nat.mul_assoc ..
    _ ≤ 2 * 1000 := Nat.mul_le_mul_left 2 (Nat.div_mul_le_self 1000 c.rate)
    _ ≤ s.gapMs * c.rate := covers

theorem two_le_ceilDiv (admitted : c.setup = .ok s) (polled : c.trigger = .polled) :
    2 ≤ s.gapMs ⌈/⌉ (1000 / c.rate) := by
  obtain ⟨positive, covers⟩ := two_periods_le_gap admitted polled
  by_contra single
  have uncovered : s.gapMs ≤ 1000 / c.rate * 1 := (ceilDiv_le_iff_le_mul positive).mp (by omega)
  omega

theorem exists_decode_of_unlocked (admitted : c.setup = .ok s) {raw : Word}
    (unlocked : ¬ raw.Meets c.lockMask) :
    ∃ code, s.decode raw = some code := by
  obtain ⟨-, -, lockMask, -⟩ := setup_eq_ok admitted
  rw [← lockMask] at unlocked
  exact Setup.exists_decode_of_not_meets unlocked

theorem leastCover_of_setup (admitted : c.setup = .ok s) (polled : c.trigger = .polled) :
    LeastCover s.gap (1000 / c.rate * ticksPerMilli) (s.gapMs ⌈/⌉ (1000 / c.rate)) :=
  (leastCover_ceilDiv (two_periods_le_gap admitted polled).1).mul_right (by decide)

end Config

/-! ### The samples of a held key -/

private theorem Holdoff.report_report (h : Holdoff) (code : Code) (since now : Instant) :
    (h.report code since).report code now = h.report code now := rfl

variable [Register ρ ε]

theorem Register.Steady.iterate {minor : Nat} {raw : Word} {register : ρ}
    (steady : Register.Steady minor raw register) (n : Nat) :
    Register.Steady minor raw ((Register.afterRead minor)^[n] register) := by
  intro reads
  rw [← Function.iterate_add_apply]
  exact steady (reads + n)

theorem Latch.steady {l : Latch} (drained : l.queue = []) (minor : Nat) :
    Register.Steady minor l.word l := by
  obtain ⟨word, queue, history⟩ := l
  cases drained
  intro reads
  -- A read only adds to what the latch has been asked for.
  induction reads generalizing history with
  | zero => rfl
  | succ reads ih => exact ih (minor :: history)

namespace Receiver

variable {s : Setup} {raw : Word} {code : Code} {register : ρ}

private theorem sample_steady (steady : Register.Steady s.minor raw register) (h : Holdoff)
    (now : Instant) :
    (⟨s, h, register⟩ : Receiver ρ).sample now = ((s.observe h (some raw) now).1,
      ⟨s, (s.observe h (some raw) now).2, Register.afterRead s.minor register⟩) := by
  have read : (Register.read register s.minor).1 = .ok raw := steady 0
  simp [sample, read, Except.toOption, Register.afterRead]

/-- Nothing holds the first code back. -/
theorem sample_fresh (steady : Register.Steady s.minor raw register)
    (decoded : s.decode raw = some code) (now : Instant) :
    (⟨s, s.holdoff, register⟩ : Receiver ρ).sample now =
      (.key code, ⟨s, s.holdoff.report code now, Register.afterRead s.minor register⟩) := by
  have free : ¬ s.holdoff.Holds code now := fun holds => Nat.not_lt_zero _ holds.1
  simp [sample_steady steady, Setup.observe, decoded, Holdoff.offer_of_not_holds free]

/-- Where the code was reported before, the end of the quiet period decides. -/
theorem sample_repeat (steady : Register.Steady s.minor raw register)
    (decoded : s.decode raw = some code) (since now : Instant) :
    (⟨s, s.holdoff.report code since, register⟩ : Receiver ρ).sample now =
      if now < since.later s.gap then
        (.held code, ⟨s, s.holdoff.report code since, Register.afterRead s.minor register⟩)
      else (.key code, ⟨s, s.holdoff.report code now, Register.afterRead s.minor register⟩) := by
  rw [sample_steady steady]
  by_cases quiet : now < since.later s.gap
  · have holds : (s.holdoff.report code since).Holds code now := ⟨quiet, Or.inr rfl⟩
    simp [Setup.observe, decoded, Holdoff.offer_of_holds holds, quiet]
  · have free : ¬ (s.holdoff.report code since).Holds code now := fun holds => quiet holds.1
    simp [Setup.observe, decoded, Holdoff.offer_of_not_holds free, Holdoff.report_report, quiet]

end Receiver

end RemoteKeys
