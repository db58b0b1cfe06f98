import RemoteKeys.Device

/-!
# Waiting for the next key

A call for the next key is polled until it has an answer, and may be given up between any two
polls. On an interrupt driven device it waits for the host's signal, serves it and reads the
register once. On a polled device it waits for a timer of one sampling period, reads the register
once when that has run out, and starts over with a new timer while there is no key to report.

The timers are those of the runtime, and the clock is the one for tests, which a timer that is
waited for takes to its deadline.
-/

namespace RemoteKeys

/--
A timer of the runtime. Three things are assumed of it: its deadline is one period after its start,
where the clock goes that far; the first poll never finds it run out; and every later poll does
which comes at the deadline or after it. A poll that does not find it run out asks the clock for a
wake at the deadline.
-/
structure Timer where
  deadline : Instant
  /-- It has been polled before. -/
  awaited : Bool := false
  deriving DecidableEq

namespace Timer

/-- A timer for so many ticks, which the clock has left. -/
def start (now : Instant) (period : Nat) : Timer := { deadline := now.later period }

/--
Polls the timer: whether it has run out, and the timer and the clock behind the poll. The clock for
tests goes straight to an instant that it is asked for a wake at, unless it has passed it.
-/
def poll (t : Timer) (clock : Instant) : Bool × Timer × Instant :=
  if t.awaited ∧ t.deadline ≤ clock then (true, t, clock)
  else (false, { t with awaited := true }, clock.latest t.deadline)

end Timer

namespace Device

variable {ρ ε : Type}

/-- Starts a timer of one sampling period and waits for it. -/
def awaitPeriod (d : Device ρ) (periodMs : Nat) : Option Timer × Device ρ :=
  let (_, timer, clock) := (Timer.start d.clock (periodMs * ticksPerMilli)).poll d.clock
  (some timer, { d with clock })

variable [Register ρ ε]

/-- A read of the register after a sampling period, and a new period where it gave no key. -/
def sampleOrAwait (d : Device ρ) (periodMs : Nat) : Option Code × Option Timer × Device ρ :=
  match d.tryKey with
  | (some code, d) => (some code, none, d)
  | (none, d) => (none, d.awaitPeriod periodMs)

/--
Polls a call for the next key. `timer?` is the timer that the call waits for: there is none before
its first poll, and none on an interrupt driven device.
-/
def pollNextKey (d : Device ρ) (timer? : Option Timer) : Option Code × Option Timer × Device ρ :=
  match d.setup.periodMs? with
  | some periodMs =>
    match timer? with
    | none => (none, d.awaitPeriod periodMs)
    | some timer =>
      match timer.poll d.clock with
      | (true, _, clock) => { d with clock }.sampleOrAwait periodMs
      | (false, timer, clock) => (none, some timer, { d with clock })
  | none =>
    match d.host.take with
    | (true, host) =>
      let (code?, d) := { d with host }.tryKey
      (code?, none, d)
    | (false, host) => (none, none, { d with host })

/--
Polls a call that has been polled `spent` times before, at most as many times more as there are
left. The answer comes with the number of polls that it took in all.
-/
def pollUpTo (d : Device ρ) (timer? : Option Timer) (spent : Nat) :
    Nat → Option (Code × Nat) × Device ρ
  | 0 => (none, d)
  | left + 1 =>
    match d.pollNextKey timer? with
    | (some code, _, d) => (some (code, spent + 1), d)
    | (none, timer?, d) => pollUpTo d timer? (spent + 1) left

/-- Makes a call for the next key, polls it at most `polls` times and gives it up. -/
def nextKey (d : Device ρ) (polls : Nat) : Option (Code × Nat) × Device ρ := d.pollUpTo none 0 polls

end Device

end RemoteKeys
