import RemoteKeys.Config
import RemoteKeys.Config.Fault
import RemoteKeys.Instant

/-!
# Setups

A setup is a configuration whose every bound has been checked. The proofs stand in its fields, so
that no part of the driver has to check again, and only what the card's trigger uses is kept:
a setup cannot hold a sampling rate for an interrupt driven card, or an inversion mask that is
ignored.

A setup also fixes what one reading of the register means. A reading with a lock line set has no
code; a polled card's code is packed after its inverted lines have been turned round; an interrupt
driven card's code is the window over its lines.
-/

namespace RemoteKeys

/-- How a card with that key mask is driven. -/
inductive Drive (mask : KeyMask) where
  /-- Sampled `rate` times a second. -/
  | polled (rate gapMs : Nat) (invertMask : Word)
      (rate_admitted : rateBounds.Admit rate) (gap_covers : Rate.leastGapMs rate ≤ gapMs)
  /-- Read once for each interrupt; codes have `width` bits. -/
  | interrupt (gapMs width : Nat)
      (gap_admitted : interruptGapBounds.Admit gapMs) (width_admitted : widthBounds.Admit width)
      (reach_le : mask.reach ≤ width)
  deriving DecidableEq

/-- A card and its remote, with every bound checked. -/
structure Setup where
  minor : Nat
  mask : KeyMask
  lockMask : Word
  drive : Drive mask
  isMinor : IsMinor minor
  deriving DecidableEq

namespace Setup

def trigger (s : Setup) : Trigger :=
  match s.drive with
  | .polled .. => .polled
  | .interrupt .. => .interrupt

/-- Quiet period, in milliseconds. -/
def gapMs (s : Setup) : Nat :=
  match s.drive with
  | .polled _ gapMs .. => gapMs
  | .interrupt gapMs .. => gapMs

/-- Quiet period, in ticks. -/
def gap (s : Setup) : Nat := s.gapMs * ticksPerMilli

/-- Lines that are read inverted. -/
def invertMask (s : Setup) : Word :=
  match s.drive with
  | .polled _ _ invertMask .. => invertMask
  | .interrupt .. => 0

/-- Samples per second; an interrupt driven card has no rate. -/
def rate? (s : Setup) : Option Nat :=
  match s.drive with
  | .polled rate .. => some rate
  | .interrupt .. => none

/-- Milliseconds between two samples; an interrupt driven card has no period. -/
def periodMs? (s : Setup) : Option Nat := s.rate?.map Rate.periodMs

/-- Width in bits of the codes that the card reports. -/
def width (s : Setup) : Nat :=
  match s.drive with
  | .polled .. => s.mask.width
  | .interrupt _ width .. => width

end Setup

/-- The code that a reading spells; a locked reading spells none. -/
def Setup.decode (s : Setup) (raw : Word) : Option Code :=
  if raw.Meets s.lockMask then none
  else match s.trigger with
    | .polled => some (s.mask.pack (raw ^^^ s.invertMask))
    | .interrupt => some (s.mask.window raw)

end RemoteKeys
