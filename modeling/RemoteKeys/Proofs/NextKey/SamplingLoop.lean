import Mathlib.Logic.Function.Iterate
import RemoteKeys.Device.NextKey
import RemoteKeys.Proofs.Cards
import RemoteKeys.Register.Latch

/-!
# The sampling loop behind a call for the next key

On a polled device a call for the next key is a machine that arms a timer, finds it run out, reads
the register and arms the next one, and it can be given up between any two polls. A plain loop says
what that comes to: read the register once a sampling period until there is a key.

## Main result

`Device.nextKey_polled`: polling a new call at most `n` times does to the device what at most
`n - 1` reads in that loop do, and its answer is the loop's key, one poll after the read that gave
it.

## Proof strategy

After the first poll, the timer that the call waits for has been asked for and runs out at the time
of the clock. Every poll from there on reads the register once, and leaves the call in that state
again where there was no key. The loop and the polls go step by step, by induction over the polls
that are left.
-/

namespace RemoteKeys

variable {ρ ε : Type}

/-- The instants one period after `t`, two periods after it, and so on. -/
def Instant.every (t : Instant) (period count : Nat) : List Instant :=
  (List.range count).map fun i => t.later ((i + 1) * period)

/-- Ticks between two samples; an interrupt driven card has no period. -/
def Setup.period? (s : Setup) : Option Nat := s.periodMs?.map (· * ticksPerMilli)

theorem Setup.exists_period {s : Setup} (polled : s.trigger = .polled) :
    ∃ period, s.period? = some period := by
  unfold trigger at polled
  unfold period? periodMs? rate?
  split at polled
  · exact ⟨_, rfl⟩
  · cases polled

/-- The register after a read. -/
def Register.afterRead [Register ρ ε] (minor : Nat) (register : ρ) : ρ :=
  (Register.read register minor).2

/--
Reads the register at one time after the other until there is a key to report. The key comes with
the number of reads and the receiver after them.
-/
def Receiver.sampleUntilKey [Register ρ ε] (r : Receiver ρ) :
    List Instant → Option Code × Nat × Receiver ρ
  | [] => (none, 0, r)
  | now :: later =>
    match (r.sample now).1.key? with
    | some code => (some code, 1, (r.sample now).2)
    | none =>
      let (key?, reads, last) := sampleUntilKey (r.sample now).2 later
      (key?, reads + 1, last)

/-! ### Instants -/

namespace Instant

theorem later_later (t : Instant) (a b : Nat) : (t.later a).later b = t.later (a + b) := by
  ext
  simp only [ticks_later]
  omega

private theorem latest_later (t : Instant) (period : Nat) :
    t.latest (t.later period) = t.later period := by
  unfold latest
  split
  · rfl
  · next passed =>
    -- Only a clock that has ended is not moved.
    rw [lt_def, ticks_later] at passed
    have end_of_clock := t.ticks_le
    ext
    rw [ticks_later]
    omega

theorem every_succ (t : Instant) (period count : Nat) :
    t.every period (count + 1) = t.later period :: (t.later period).every period count := by
  simp only [every, List.range_succ_eq_map, List.map_cons, List.map_map, Function.comp_def,
    later_later, Nat.succ_eq_add_one, Nat.add_mul, Nat.zero_mul, Nat.zero_add, Nat.one_mul,
    Nat.add_comm period]

@[simp] theorem length_every (t : Instant) (period count : Nat) :
    (t.every period count).length = count := by
  simp [every]

private theorem ticks_every {t : Instant} {period count : Nat}
    (fits : t.ticks + count * period ≤ lastTick) :
    (t.every period count).map ticks =
      (List.range count).map fun i => t.ticks + (i + 1) * period := by
  rw [every, List.map_map]
  apply List.map_congr_left
  intro i mem
  apply ticks_later_of_le
  have within : (i + 1) * period ≤ count * period :=
    Nat.mul_le_mul_right period (List.mem_range.mp mem)
  omega

end Instant

variable [Register ρ ε]

/-! ### The loop -/

/-- The loop touches the register by its reads only. -/
theorem Receiver.register_sampleUntilKey (r : Receiver ρ) (times : List Instant) :
    (r.sampleUntilKey times).2.2.register =
      (Register.afterRead r.setup.minor)^[(r.sampleUntilKey times).2.1] r.register := by
  induction times generalizing r with
  | nil => rfl
  | cons now later ih =>
    rw [sampleUntilKey]
    split
    · rfl
    · simp only [Function.iterate_succ_apply]
      exact ih _

/-- A key takes a read at least; without one, the register is read at every time. -/
theorem Receiver.reads_sampleUntilKey {r last : Receiver ρ} {times : List Instant}
    {key? : Option Code} {reads : Nat} (looped : r.sampleUntilKey times = (key?, reads, last)) :
    reads ≤ times.length ∧ (key? ≠ none → 1 ≤ reads) ∧ (key? = none → reads = times.length) := by
  induction times generalizing r reads with
  | nil =>
    cases looped
    simp
  | cons now later ih =>
    rw [sampleUntilKey] at looped
    split at looped
    · cases looped
      simp
    · rcases rest : (r.sample now).2.sampleUntilKey later with ⟨later_key?, later_reads, later_last⟩
      rw [rest] at looped
      cases looped
      obtain ⟨within, -, whole⟩ := ih rest
      rw [List.length_cons]
      exact ⟨by omega, fun _ => by omega, fun no_key => by rw [whole no_key]⟩

/-! ### The polls -/

/-- A timer that has been asked for and runs out now. -/
def Timer.due (now : Instant) : Timer := ⟨now, true⟩

namespace Device

private theorem awaitPeriod_eq (d : Device ρ) (periodMs : Nat) : d.awaitPeriod periodMs =
    (some (Timer.due (d.clock.later (periodMs * ticksPerMilli))),
      { d with clock := d.clock.later (periodMs * ticksPerMilli) }) := by
  simp [awaitPeriod, Timer.start, Timer.poll, Timer.due, Instant.latest_later]

theorem pollNextKey_first {d : Device ρ} {period : Nat} (polled : d.setup.period? = some period) :
    d.pollNextKey none =
      (none, some (Timer.due (d.clock.later period)),
        { d with clock := d.clock.later period }) := by
  obtain ⟨periodMs, sampled, rfl⟩ := Option.map_eq_some_iff.mp polled
  simp only [pollNextKey, sampled, awaitPeriod_eq]

private theorem pollNextKey_due {d : Device ρ} {period : Nat}
    (polled : d.setup.period? = some period) :
    d.pollNextKey (some (Timer.due d.clock)) =
      match d.receiver.sample d.clock with
      | (outcome, receiver) =>
        match outcome.key? with
        | some code => (some code, none, { d with receiver })
        | none => (none, some (Timer.due (d.clock.later period)),
            { d with receiver, clock := d.clock.later period }) := by
  obtain ⟨periodMs, sampled, rfl⟩ := Option.map_eq_some_iff.mp polled
  -- A timer that has been asked for before has run out at its deadline.
  have ran_out : (Timer.due d.clock).poll d.clock = (true, Timer.due d.clock, d.clock) :=
    if_pos ⟨rfl, Nat.le_refl _⟩
  simp only [pollNextKey, sampled, ran_out, sampleOrAwait, tryKey, sample, awaitPeriod_eq]
  cases (d.receiver.sample d.clock).1.key? <;> rfl

/-- The polls with a timer that is due go step by step with the loop. -/
theorem pollUpTo_due (d : Device ρ) {period : Nat} (polled : d.setup.period? = some period)
    (before : Instant) (spent left : Nat) :
    pollUpTo { d with clock := before.later period }
    (some (Timer.due (before.later period))) spent left =
      match d.receiver.sampleUntilKey (before.every period left) with
      | (some code, reads, receiver) =>
        (some (code, reads + spent), { d with receiver, clock := before.later (reads * period) })
      | (none, _, receiver) =>
        (none, { d with receiver, clock := before.later ((left + 1) * period) }) := by
  -- The clock is kept as one period after `before`, so that both sides count periods from there.
  induction left generalizing d before spent with
  | zero => simp [pollUpTo, Instant.every, Receiver.sampleUntilKey]
  | succ left ih =>
    have poll := pollNextKey_due (d := { d with clock := before.later period }) polled
    rw [pollUpTo, poll, Instant.every_succ, Receiver.sampleUntilKey]
    rcases sampled : d.receiver.sample (before.later period) with ⟨outcome, receiver⟩
    cases key : outcome.key? with
    | some code => simp [key, Nat.add_comm]
    | none =>
      -- The call waits as it did before, one period later and with the register read once more.
      have kept : receiver.setup.period? = some period := by
        have same := Receiver.setup_sample d.receiver (before.later period)
        rw [sampled] at same
        rwa [same]
      have continued := ih { d with receiver } kept (before.later period) (spent + 1)
      have elapsed (periods : Nat) :
          (before.later period).later (periods * period) =
            before.later ((periods + 1) * period) := by
        rw [Instant.later_later, Nat.succ_mul, Nat.add_comm]
      simp only [key]
      rw [continued]
      rcases receiver.sampleUntilKey ((before.later period).every period left)
        with ⟨key?, reads, last⟩
      cases key? with
      | some code => simp only [elapsed, Nat.add_assoc, Nat.add_comm 1 spent]
      | none => simp only [elapsed]

theorem nextKey_succ (d : Device ρ) {period : Nat} (polled : d.setup.period? = some period)
    (left : Nat) :
    d.nextKey (left + 1) =
      match d.receiver.sampleUntilKey (d.clock.every period left) with
      | (some code, reads, receiver) =>
        (some (code, reads + 1), { d with receiver, clock := d.clock.later (reads * period) })
      | (none, _, receiver) =>
        (none, { d with receiver, clock := d.clock.later ((left + 1) * period) }) := by
  -- The first poll reads nothing, and leaves a timer that is due when it is asked for again.
  rw [nextKey, pollUpTo, pollNextKey_first polled]
  exact pollUpTo_due d polled d.clock 1 left

/-! ### Main result -/

/--
A call for the next key on a polled device, polled at most `n` times and given up: it does what the
loop does that reads the register one period after the time of the clock, two periods after it, and
so on, at most `n - 1` times. The key of the read number `reads` is the answer to the poll after it.
-/
theorem nextKey_polled (d : Device ρ) (polled : d.setup.trigger = .polled) :
    ∃ period, d.setup.period? = some period ∧
      ∀ n, 1 ≤ n → d.clock.ticks + n * period ≤ lastTick →
        let times := d.clock.every period (n - 1)
        times.map Instant.ticks =
          (List.range (n - 1)).map (fun i => d.clock.ticks + (i + 1) * period) ∧
          match d.receiver.sampleUntilKey times with
          | (some code, reads, receiver) => 1 ≤ reads ∧ reads ≤ n - 1 ∧
            receiver.register = (Register.afterRead d.setup.minor)^[reads] d.receiver.register ∧
            ∃ now, now.ticks = d.clock.ticks + reads * period ∧
              d.nextKey n = (some (code, reads + 1), { d with receiver, clock := now })
          | (none, reads, receiver) => reads = n - 1 ∧
            receiver.register = (Register.afterRead d.setup.minor)^[reads] d.receiver.register ∧
            ∃ now, now.ticks = d.clock.ticks + n * period ∧
              d.nextKey n = (none, { d with receiver, clock := now }) := by
  obtain ⟨period, sampled⟩ := Setup.exists_period polled
  refine ⟨period, sampled, ?_⟩
  intro n asked fits times
  obtain ⟨left, rfl⟩ : ∃ left, n = left + 1 := ⟨n - 1, by omega⟩
  have fits_reads {reads : Nat} (within : reads ≤ left + 1) :
      d.clock.ticks + reads * period ≤ lastTick :=
    Nat.le_trans (Nat.add_le_add_left (Nat.mul_le_mul_right period within) _) fits
  have polls := d.nextKey_succ sampled left
  have registers := d.receiver.register_sampleUntilKey times
  refine ⟨Instant.ticks_every (fits_reads (Nat.le_succ left)), ?_⟩
  rcases looped : d.receiver.sampleUntilKey times with ⟨key?, reads, last⟩
  rw [looped] at registers
  rw [show d.receiver.sampleUntilKey (d.clock.every period left) = _ from looped] at polls
  obtain ⟨within, positive, whole⟩ := Receiver.reads_sampleUntilKey looped
  rw [Instant.length_every] at within whole
  cases key? with
  | some code =>
    refine ⟨positive (by simp), within, registers, d.clock.later (reads * period), ?_, polls⟩
    exact Instant.ticks_later_of_le (fits_reads (by omega))
  | none =>
    refine ⟨whole rfl, registers, d.clock.later ((left + 1) * period), ?_, polls⟩
    exact Instant.ticks_later_of_le fits

end Device

/-- A key after a failed read and a locked reading: the fourth poll answers, the third does not. -/
theorem nextKey_polled_bt848 :
    let latch : Latch := { word := 0x1300, queue := [.error .queued, .ok 0x9300] }
    let d := Device.start "bt848" bt848 latch (.ofTicks 1)
    d.setup.trigger = .polled ∧ d.setup.period? = some 83000 ∧
      d.clock.ticks + 4 * 83000 ≤ lastTick ∧
      (∃ receiver now, receiver.register.reads = 3 ∧ now.ticks = 249001 ∧
        d.nextKey 4 = (some (19, 4), { d with receiver, clock := now })) ∧
      ∃ receiver now, receiver.register.reads = 2 ∧ now.ticks = 249001 ∧
        d.nextKey 3 = (none, { d with receiver, clock := now }) := by
  intro latch d
  have polled : d.setup.trigger = .polled := by decide
  obtain ⟨period, sampled, spec⟩ := d.nextKey_polled polled
  have known : d.setup.period? = some 83000 := by decide
  obtain rfl : 83000 = period := Option.some.inj (known.symm.trans sampled)
  refine ⟨polled, known, by decide, ?_, ?_⟩
  · have looped := (spec 4 (by decide) (by decide)).2
    rcases answer : d.receiver.sampleUntilKey (d.clock.every 83000 3) with ⟨key?, reads, receiver⟩
    have key : (d.receiver.sampleUntilKey (d.clock.every 83000 3)).1 = some 19 := by decide
    have count : (d.receiver.sampleUntilKey (d.clock.every 83000 3)).2.1 = 3 := by decide
    simp only [answer] at looped key count
    subst key count
    obtain ⟨-, -, register, now, time, polls⟩ := looped
    exact ⟨receiver, now, by rw [register]; decide, by rw [time]; decide, polls⟩
  · have looped := (spec 3 (by decide) (by decide)).2
    rcases answer : d.receiver.sampleUntilKey (d.clock.every 83000 2) with ⟨key?, reads, receiver⟩
    have key : (d.receiver.sampleUntilKey (d.clock.every 83000 2)).1 = none := by decide
    simp only [answer] at looped key
    subst key
    obtain ⟨count, register, now, time, polls⟩ := looped
    exact ⟨receiver, now, by rw [register, count]; decide, by rw [time]; decide, polls⟩

end RemoteKeys
