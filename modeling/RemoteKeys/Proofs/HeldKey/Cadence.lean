import RemoteKeys.Proofs.Device.History
import RemoteKeys.Proofs.HeldKey.Repeat

/-!
# The cadence of a held key

Whoever calls for the next key again and again, while one key is held down, gets it at a fixed
cadence. The first call answers after one sampling period. Every later one starts at the time of the
report before, since a timer takes the clock to its deadline and no further, and answers when the
sampling periods have covered the quiet period.

## Main result

`Config.held_key_cadence`: the answers of such calls, with the number of polls, the clock and the
number of reads, for as long as the clock goes on.

## Proof strategy

A report leaves the device in a state that depends only on its time (`Device.AfterReport`), and a
call takes one such state to the next (`Device.nextKey_repeat`). The calls are put together by
induction.
-/

namespace RemoteKeys

variable {ρ ε : Type} [Register ρ ε]

namespace Receiver

variable {s : Setup} {raw : Word} {code : Code} {register : ρ}

/-- From the sample number `i` behind a report on, the loop goes as far as the quiet period does. -/
theorem sampleUntilKey_repeat (steady : Register.Steady s.minor raw register)
    (decoded : s.decode raw = some code) {since : Instant} {period samples : Nat}
    (cover : LeastCover s.gap period samples) (positive : 0 < period)
    (fits : since.ticks + samples * period ≤ lastTick) {i left count : Nat}
    (sum : i + left + 1 = samples) (enough : left + 1 ≤ count) :
    (⟨s, s.holdoff.report code since, register⟩ : Receiver ρ).sampleUntilKey
        ((since.later (i * period)).every period count) =
      (some code, left + 1, ⟨s, s.holdoff.report code (since.later (samples * period)),
        (Register.afterRead s.minor)^[left + 1] register⟩) := by
  -- By the number of samples that are still held back.
  induction left generalizing i count register with
  | zero =>
    obtain ⟨more, rfl⟩ : ∃ more, count = more + 1 := ⟨count - 1, by omega⟩
    have due : (since.later (i * period)).later period = since.later (samples * period) := by
      rw [Instant.later_later, ← Nat.succ_mul, ← sum]
    have elapsed : ¬ since.later (samples * period) < since.later s.gap := fun before =>
      Nat.lt_irrefl _ ((Instant.later_lt_later_iff cover).mp before).1
    rw [Instant.every_succ, sampleUntilKey, due, sample_repeat steady decoded, if_neg elapsed]
    rfl
  | succ left ih =>
    obtain ⟨more, rfl⟩ : ∃ more, count = more + 1 := ⟨count - 1, by omega⟩
    have next : (since.later (i * period)).later period = since.later ((i + 1) * period) := by
      rw [Instant.later_later, ← Nat.succ_mul]
    have inside : i + 1 < samples := by omega
    have before_end : since.ticks + (i + 1) * period < lastTick := by
      have earlier := Nat.mul_lt_mul_of_pos_right inside positive
      omega
    have quiet := (Instant.later_lt_later_iff cover).mpr ⟨inside, before_end⟩
    have steady_next : Register.Steady s.minor raw (Register.afterRead s.minor register) :=
      steady.iterate 1
    have sum_next : i + 1 + left + 1 = samples := by omega
    rw [Instant.every_succ, sampleUntilKey, next, sample_repeat steady decoded, if_pos quiet,
      ih steady_next sum_next (Nat.le_of_succ_le_succ enough)]
    rfl

end Receiver

namespace Device

variable {d : Device ρ} {s : Setup} {raw : Word} {code : Code} {register : ρ} {period samples : Nat}

/-- The device has just reported the code, at the time of its clock, and nothing else is known of
it. -/
def AfterReport (d : Device ρ) (s : Setup) (code : Code) (register : ρ) : Prop :=
  d.receiver = ⟨s, s.holdoff.report code d.clock, register⟩

private theorem history_nextKey {d e : Device ρ} {polls : Nat} {answer : Option (Code × Nat)}
    (answered : d.nextKey polls = (answer, e)) (rest : List (Action ρ)) :
    d.history (.nextKey polls :: rest) = ⟨d, .nextKey polls, .nextKey answer,
      e⟩ :: e.history rest := by
  have act : d.act (.nextKey polls) = (.nextKey answer, e) := by rw [Device.act, answered]
  rw [history, event, act]

/-- The first call answers at the second poll. -/
theorem nextKey_first (fresh : d.receiver = Receiver.start s register)
    (sampled : s.period? = some period) (steady : Register.Steady s.minor raw register)
    (decoded : s.decode raw = some code) {polls : Nat} (enough : 2 ≤ polls) :
    ∃ e, d.nextKey polls = (some (code, 2), e) ∧
      e.AfterReport s code (Register.afterRead s.minor register) ∧
        e.clock = d.clock.later period := by
  obtain ⟨left, rfl⟩ : ∃ left, polls = left + 2 := ⟨polls - 2, by omega⟩
  have polled : d.setup.period? = some period := by rw [setup, fresh]; exact sampled
  -- The loop has a key at its first sample, one period after the clock.
  rw [d.nextKey_succ polled (left + 1), fresh, Instant.every_succ, Receiver.sampleUntilKey,
    Receiver.start, Receiver.sample_fresh steady decoded]
  exact ⟨_, rfl, by rw [AfterReport, Nat.one_mul], by rw [Nat.one_mul]⟩

/-- Every later call answers when the sampling periods have covered the quiet period. -/
theorem nextKey_repeat (reported : d.AfterReport s code register)
    (sampled : s.period? = some period) (steady : Register.Steady s.minor raw register)
    (decoded : s.decode raw = some code) (cover : LeastCover s.gap period samples)
    (positive : 0 < period) (some_samples : 0 < samples)
    (fits : d.clock.ticks + samples * period ≤ lastTick) {polls : Nat} (enough : samples < polls) :
    ∃ e, d.nextKey polls = (some (code, samples + 1), e) ∧
      e.AfterReport s code ((Register.afterRead s.minor)^[samples] register) ∧
      e.clock = d.clock.later (samples * period) := by
  obtain ⟨left, rfl⟩ : ∃ left, polls = left + 1 := ⟨polls - 1, by omega⟩
  obtain ⟨held, rfl⟩ : ∃ held, samples = held + 1 := ⟨samples - 1, by omega⟩
  have polled : d.setup.period? = some period := by rw [setup, reported]; exact sampled
  -- The loop starts where the report was, so that its samples are counted from there.
  have now : d.clock.later (0 * period) = d.clock := by rw [Nat.zero_mul, Instant.later_zero]
  have looped := Receiver.sampleUntilKey_repeat steady decoded cover positive fits (i := 0)
    (by omega) (Nat.le_of_lt_succ enough)
  rw [now] at looped
  rw [d.nextKey_succ polled left, reported, looped]
  exact ⟨_, rfl, rfl, rfl⟩

/-- The calls that follow a report, one after the other. -/
theorem history_repeat (reported : d.AfterReport s code register)
    (sampled : s.period? = some period) (steady : Register.Steady s.minor raw register)
    (decoded : s.decode raw = some code) (cover : LeastCover s.gap period samples)
    (positive : 0 < period) (some_samples : 0 < samples) {calls : List Nat}
    (enough : ∀ polls ∈ calls, samples < polls) {i : Nat} (called : i < calls.length)
    (fits : d.clock.ticks + (i + 1) * (samples * period) ≤ lastTick) :
    ∃ e, (d.history (calls.map .nextKey))[i]? = some e ∧
      e.reply = .nextKey (some (code, samples + 1)) ∧
      e.after.clock.ticks = d.clock.ticks + (i + 1) * (samples * period) ∧
      e.after.receiver.register = (Register.afterRead s.minor)^[(i + 1) * samples] register := by
  -- Over the calls, from any report: the next one starts where this one ends.
  induction calls generalizing d register i with
  | nil => cases called
  | cons polls later ih =>
    obtain ⟨enough_now, enough_later⟩ := List.forall_mem_cons.mp enough
    have fits_now : d.clock.ticks + samples * period ≤ lastTick := by
      rw [Nat.add_one_mul] at fits
      omega
    obtain ⟨e, answered, reported_again, clock⟩ :=
      nextKey_repeat reported sampled steady decoded cover positive some_samples fits_now enough_now
    have ticks : e.clock.ticks = d.clock.ticks + samples * period := by
      rw [clock, Instant.ticks_later_of_le fits_now]
    rw [List.map_cons, history_nextKey answered]
    cases i with
    | zero =>
      refine ⟨_, rfl, rfl, ?_, ?_⟩
      · rw [ticks, Nat.zero_add, Nat.one_mul]
      · rw [reported_again, Nat.zero_add, Nat.one_mul]
    | succ i =>
      have due : e.clock.ticks + (i + 1) * (samples * period) =
          d.clock.ticks + (i + 1 + 1) * (samples * period) := by
        rw [ticks, Nat.add_assoc, Nat.add_comm (samples * period), ← Nat.succ_mul]
      obtain ⟨last, found, reply, time, reads⟩ :=
        ih reported_again (steady.iterate samples) enough_later
        (Nat.lt_of_succ_lt_succ called) (due ▸ fits)
      refine ⟨last, found, reply, time.trans due, ?_⟩
      rw [reads, ← Function.iterate_add_apply, ← Nat.succ_mul]

end Device

/-! ### Main result -/

/--
A key is held down on an admitted polled card, whose sampling period is rounded down to
milliseconds, and call after call for the next key is polled until it has an answer. They all answer
with the key's code: the first after one period, and every other as many periods after the one
before as it takes to cover the quiet period. That is two at least, so that no two samples in a row
are reported. The clock has to go on until then.
-/
theorem Config.held_key_cadence {c : Config} {s : Setup} (admitted : c.setup = .ok s)
    (polled : c.trigger = .polled) :
    let periodMs := 1000 / c.rate
    let samples := s.gapMs ⌈/⌉ periodMs
    2 ≤ samples ∧ ∀ raw : Word, ¬ raw.Meets c.lockMask → ∃ code, s.decode raw = some code ∧
      ∀ register : ρ, Register.Steady c.minor raw register → ∀ (name : String) (t : Instant),
        let d := Device.start name s register t
        let due := fun i => t.ticks + (periodMs + i * (samples * periodMs)) * ticksPerMilli
        ∀ first later, 2 ≤ first → (∀ polls ∈ later, samples < polls) →
          ∀ i ≤ later.length, due i ≤ lastTick →
            ∃ e, (d.history ((first :: later).map .nextKey))[i]? = some e ∧
              e.reply = .nextKey (some (code, if i = 0 then 2 else samples + 1)) ∧
              e.after.clock.ticks = due i ∧
              e.after.receiver.register =
                (Register.afterRead c.minor)^[1 + i * samples] register := by
  intro periodMs samples
  have some_samples : 2 ≤ samples := two_le_ceilDiv admitted polled
  refine ⟨some_samples, fun raw unlocked => ?_⟩
  obtain ⟨minor, -⟩ := setup_eq_ok admitted
  obtain ⟨code, decoded⟩ := exists_decode_of_unlocked admitted unlocked
  refine ⟨code, decoded, ?_⟩
  intro register steady name t d due first later enough_first enough_later i called fits
  rw [← minor] at steady ⊢
  have sampled := period?_of_setup admitted polled
  have cover := leastCover_of_setup admitted polled
  have positive : 0 < periodMs * ticksPerMilli :=
    Nat.mul_pos (two_periods_le_gap admitted polled).1 (by decide)
  have due_eq (i : Nat) : due i =
      t.ticks + periodMs * ticksPerMilli + i * (samples * (periodMs * ticksPerMilli)) := by
    simp only [due, Nat.add_mul, Nat.mul_assoc, Nat.add_assoc]
  obtain ⟨e, answered, reported, clock⟩ : ∃ e, d.nextKey first = (some (code, 2), e) ∧
      e.AfterReport s code ((Register.afterRead s.minor)^[1] register) ∧
      e.clock = t.later (periodMs * ticksPerMilli) :=
    Device.nextKey_first rfl sampled steady decoded enough_first
  have ticks : e.clock.ticks = t.ticks + periodMs * ticksPerMilli := by
    rw [due_eq] at fits
    rw [clock, Instant.ticks_later_of_le (by omega)]
  rw [List.map_cons, Device.history_nextKey answered]
  -- Behind the first call the device is as behind any other report.
  cases i with
  | zero =>
    refine ⟨_, rfl, rfl, ?_, ?_⟩
    · rw [ticks, due_eq, Nat.zero_mul, Nat.add_zero]
    · rw [reported, Nat.zero_mul]
  | succ i =>
    rw [due_eq, ← ticks] at fits ⊢
    obtain ⟨last, found, reply, time, reads⟩ := Device.history_repeat reported sampled
      (steady.iterate 1) decoded cover positive
        (Nat.lt_of_lt_of_le Nat.two_pos some_samples) enough_later
      called fits
    refine ⟨last, found, reply, time, ?_⟩
    rw [reads, ← Function.iterate_add_apply, Nat.add_comm]

/-- Seven periods of 83 milliseconds cover a quiet period of half a second, and six do not. -/
theorem held_key_cadence_bt848 : bt848Config.setup = .ok bt848 ∧
    let d := Device.start "bt848" bt848 ({ word := 0x1500 } : Latch) (.ofTicks 5)
    ∃ e, (d.history [.nextKey 2, .nextKey 8, .nextKey 9])[2]? = some e ∧
      e.reply = .nextKey (some (21, 8)) ∧
      e.after.clock.ticks = 5 + (83 + 2 * 581) * ticksPerMilli := by
  have admitted : bt848Config.setup = .ok bt848 := by decide +kernel
  obtain ⟨-, cadence⟩ := Config.held_key_cadence (ρ := Latch) admitted rfl
  obtain ⟨code, decoded, calls⟩ := cadence 0x1500 (by decide)
  obtain rfl : 21 = code := Option.some.inj decoded
  obtain ⟨e, found, reply, time, -⟩ := calls { word := 0x1500 } (Latch.steady rfl _) "bt848"
    (.ofTicks 5) 2 [8, 9] (by decide) (by decide) 2 (by decide) (by decide)
  exact ⟨admitted, e, found, reply, time⟩

end RemoteKeys
