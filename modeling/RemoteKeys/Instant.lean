/-!
# Instants

The clock counts ticks of one microsecond in 64 bits. A hold-off that would end past the end of the
clock ends with it, so that the sum of an instant and a number of ticks stays at the last instant.
Nothing else relies on that. A clock that is set or moved on, a timer and a sample of a trace are
about instants which the clock has, within the range of `ticks_ofTicks_of_le`,
`ticks_ofMillis_of_le` and `ticks_later_of_le`; beyond it they cannot be had at all, and the last
instant stands for nothing there.
-/

namespace RemoteKeys

def ticksPerMilli : Nat := 1000

/-- The largest value of the tick counter, `2 ^ 64 - 1`. -/
def lastTick : Nat := 18446744073709551615

/-- A point in time, as the number of ticks since the clock was started. -/
structure Instant where
  ticks : Nat
  ticks_le : ticks ≤ lastTick
  deriving DecidableEq

namespace Instant

instance : LT Instant := ⟨fun a b => a.ticks < b.ticks⟩
instance : LE Instant := ⟨fun a b => a.ticks ≤ b.ticks⟩
instance (a b : Instant) : Decidable (a < b) := inferInstanceAs (Decidable (a.ticks < b.ticks))
instance (a b : Instant) : Decidable (a ≤ b) := inferInstanceAs (Decidable (a.ticks ≤ b.ticks))

/-- The instant `n` ticks after the start, for `n` up to `lastTick`. -/
def ofTicks (n : Nat) : Instant := ⟨min n lastTick, Nat.min_le_right ..⟩

/-- The instant `n` milliseconds after the start, for `n` up to `lastTick / ticksPerMilli`. -/
def ofMillis (n : Nat) : Instant := ofTicks (n * ticksPerMilli)

def zero : Instant := ofTicks 0

/-- The instant `d` ticks later, or the last instant where the clock ends before that. -/
def later (t : Instant) (d : Nat) : Instant := ofTicks (t.ticks + d)

def latest (a b : Instant) : Instant := if a < b then b else a

theorem lt_def {a b : Instant} : a < b ↔ a.ticks < b.ticks := Iff.rfl

@[simp] theorem ticks_zero : zero.ticks = 0 := rfl

@[simp] theorem ticks_ofMillis (n : Nat) : (ofMillis n).ticks = min (n * 1000) lastTick := rfl

@[simp] theorem ticks_later (t : Instant) (d : Nat) :
    (t.later d).ticks = min (t.ticks + d) lastTick := rfl

theorem ticks_ofTicks_of_le {n : Nat} (fits : n ≤ lastTick) : (ofTicks n).ticks = n :=
  Nat.min_eq_left fits

theorem ticks_ofMillis_of_le {n : Nat} (fits : n * ticksPerMilli ≤ lastTick) :
    (ofMillis n).ticks = n * ticksPerMilli := ticks_ofTicks_of_le fits

theorem ticks_later_of_le {t : Instant} {d : Nat} (fits : t.ticks + d ≤ lastTick) :
    (t.later d).ticks = t.ticks + d := ticks_ofTicks_of_le fits

@[ext] theorem ext {a b : Instant} (h : a.ticks = b.ticks) : a = b := by
  cases a; cases b; simp_all

end Instant

end RemoteKeys
