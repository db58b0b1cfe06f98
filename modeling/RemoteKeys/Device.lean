import RemoteKeys.Receiver

/-!
# Devices

A device is a receiver together with what it shares with its host: the count of users who keep it
open, the signal that the card's interrupt raises, and the clock.
-/

namespace RemoteKeys

/--
What a host keeps for a device. Its signal is one of the runtime's, of which two things are assumed:
it is raised or not, however often it was raised before it is taken; and a wait for it ends at the
first poll that finds it raised, and takes it, while any other poll leaves it as it is.
-/
structure Host where
  users : Nat := 0
  /-- The signal is raised: there was an interrupt that has not been served yet. -/
  notified : Bool := false
  deriving DecidableEq

namespace Host

def acquire (h : Host) : Host := { h with users := h.users + 1 }

def release (h : Host) : Host := { h with users := h.users - 1 }

/-- Someone keeps the device open. -/
def InUse (h : Host) : Prop := h.users ≠ 0

instance (h : Host) : Decidable h.InUse := inferInstanceAs (Decidable (h.users ≠ 0))

/-- Raises the signal, which changes nothing where it is raised already. -/
def notify (h : Host) : Host := { h with notified := true }

/-- Polls a wait for the signal once: whether it was raised, and the host with the signal taken. -/
def take (h : Host) : Bool × Host := (h.notified, { h with notified := false })

end Host

/-- What a host records of a device when it registers it. -/
structure Descriptor where
  name : String
  minor : Nat
  /-- Width in bits of the codes that the device reports. -/
  width : Nat
  /-- Samples per second that the host should poll at; an interrupt driven device has no rate. -/
  rate? : Option Nat
  deriving DecidableEq

/--
A receiver with its host and its clock. The clock is one for tests: it stands where it was set,
until it is set again or a timer moves it. One that was never set, or was set to zero ticks, shows
the time of the system instead and is not moved by timers. That is left out: a device whose clock
stands at zero ticks stands for none of those.
-/
structure Device (ρ : Type) where
  name : String
  receiver : Receiver ρ
  host : Host := {}
  clock : Instant

namespace Device

variable {ρ ε : Type}

/-- A device without users that has taken no sample yet, at that time. -/
def start (name : String) (setup : Setup) (register : ρ) (clock : Instant) : Device ρ :=
  { name, receiver := Receiver.start setup register, clock }

def setup (d : Device ρ) : Setup := d.receiver.setup

def descriptor (d : Device ρ) : Descriptor :=
  { name := d.name, minor := d.setup.minor, width := d.setup.width, rate? := d.setup.rate? }

/-- The host has to wait for the signal before it looks for a key, and not for a rate. -/
def WaitsForSignal (d : Device ρ) : Prop := d.setup.trigger = .interrupt

instance (d : Device ρ) : Decidable d.WaitsForSignal :=
  inferInstanceAs (Decidable (d.setup.trigger = .interrupt))

def acquire (d : Device ρ) : Device ρ := { d with host := d.host.acquire }

def reset (d : Device ρ) : Device ρ := { d with receiver := d.receiver.reset }

variable [Register ρ ε]

def sample (d : Device ρ) (now : Instant) : Outcome × Device ρ :=
  let (outcome, receiver) := d.receiver.sample now
  (outcome, { d with receiver })

/-- Reads the register once, at the time of the clock, for a key to report. -/
def tryKey (d : Device ρ) : Option Code × Device ρ :=
  let (outcome, d) := d.sample d.clock
  (outcome.key?, d)

end Device

end RemoteKeys
