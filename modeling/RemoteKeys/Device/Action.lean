import RemoteKeys.Device.NextKey

/-!
# Actions on devices

What can be done to a device, or happen around it, does not depend on what its register is: users
look for keys, the host counts users and raises the signal, the clock is set, and the register
changes as it likes between two reads.
-/

namespace RemoteKeys.Device

/-- Something that is done to a device or happens around it. -/
inductive Action (ρ : Type) where
  /-- The register changes, whichever way it does. -/
  | changeRegister (change : ρ → ρ)
  | setClock (now : Instant)
  | sample (now : Instant)
  /-- The register is read for a key, at a time of its own. -/
  | keyAt (now : Instant)
  | tryKey
  /-- A word is decoded that was not read. -/
  | decode (raw : Word)
  | reset
  | acquire
  /-- A user opens the device through its host. -/
  | acquireFromHost
  /-- A user closes the device. -/
  | release
  | notify
  /-- Someone looks once for the interrupt. -/
  | takeSignal
  | askSignal
  /-- Someone calls for the next key, and polls at most so many times. -/
  | nextKey (polls : Nat)

/-- What an action answers. -/
inductive Reply where
  | done
  | time (now : Instant)
  | outcome (outcome : Outcome)
  | code (code? : Option Code)
  | ready (isReady : Bool)
  | signal (isThere : Bool)
  /-- The next key and the number of polls that it took. -/
  | nextKey (answer : Option (Code × Nat))
  deriving DecidableEq

def act {ρ ε : Type} [Register ρ ε] (d : Device ρ) : Action ρ → Reply × Device ρ
  | .changeRegister change =>
    (.done, { d with receiver := { d.receiver with register := change d.receiver.register } })
  | .setClock clock => (.time clock, { d with clock })
  | .sample now => let (outcome, d) := d.sample now; (.outcome outcome, d)
  | .keyAt now => let (outcome, d) := d.sample now; (.code outcome.key?, d)
  | .tryKey => let (code?, d) := d.tryKey; (.code code?, d)
  | .decode raw => (.code (d.setup.decode raw), d)
  | .reset => (.done, d.reset)
  | .acquire => (.done, d.acquire)
  | .acquireFromHost => (.done, { d with host := d.host.acquire })
  | .release => (.done, { d with host := d.host.release })
  | .notify => (.done, { d with host := d.host.notify })
  | .takeSignal => let (isReady, host) := d.host.take; (.ready isReady, { d with host })
  | .askSignal => (.signal (decide d.WaitsForSignal), d)
  | .nextKey polls => let (answer, d) := d.nextKey polls; (.nextKey answer, d)

end RemoteKeys.Device
