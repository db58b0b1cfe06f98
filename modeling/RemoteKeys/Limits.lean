/-!
# Limits

The bounds that a configuration is held to, and the arithmetic of sampling rates that the bound
on a sampled card's quiet period comes from.
-/

namespace RemoteKeys

/-- A closed interval of numbers. -/
structure Bounds where
  least : Nat
  most : Nat
  deriving DecidableEq

namespace Bounds

def Admit (b : Bounds) (n : Nat) : Prop := b.least ≤ n ∧ n ≤ b.most

instance (b : Bounds) (n : Nat) : Decidable (b.Admit n) :=
  inferInstanceAs (Decidable (b.least ≤ n ∧ n ≤ b.most))

def text (b : Bounds) : String := toString b.least ++ "..=" ++ toString b.most

end Bounds

/-- Number of cards that a host can bind; their minors count from zero. -/
def deviceLimit : Nat := 4

/-- Samples per second of a polled card. -/
def rateBounds : Bounds := ⟨2, 50⟩

/-- Samples per second where the configuration names none. -/
def defaultRate : Nat := 10

/-- Quiet period of an interrupt driven card, in milliseconds. -/
def interruptGapBounds : Bounds := ⟨100, 1000⟩

/-- Quiet period of an interrupt driven card that names none, in milliseconds. -/
def defaultInterruptGapMs : Nat := 400

/-- Quiet period of a polled card that names none, in milliseconds, unless its rate needs a longer
one. -/
def defaultPolledGapMs : Nat := 400

/-- Width of an interrupt driven card's codes, in bits. -/
def widthBounds : Bounds := ⟨1, 16⟩

/-- Stands for a time that no rate reaches, in milliseconds. -/
def unreachableMs : Nat := 65535

/-- A minor that names one of the cards a host can bind. -/
def IsMinor (minor : Nat) : Prop := minor < deviceLimit

instance (minor : Nat) : Decidable (IsMinor minor) :=
  inferInstanceAs (Decidable (minor < deviceLimit))

namespace Rate

/--
The shortest quiet period, in milliseconds, of a card sampled `rate` times a second: two sampling
periods, rounded up.
-/
def leastGapMs (rate : Nat) : Nat := if rate = 0 then unreachableMs else (2000 + rate - 1) / rate

/-- Milliseconds between two samples at `rate` samples a second, rounded down. -/
def periodMs (rate : Nat) : Nat := if rate = 0 then unreachableMs else 1000 / rate

theorem leastGapMs_le_iff {rate gap : Nat} (h : 0 < rate) :
    leastGapMs rate ≤ gap ↔ 2000 ≤ gap * rate := by
  simp only [leastGapMs, Nat.ne_of_gt h, ↓reduceIte]
  rw [Nat.div_le_iff_le_mul_add_pred h, Nat.mul_comm rate gap]
  omega

end Rate

end RemoteKeys
