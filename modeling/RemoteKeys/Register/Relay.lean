import RemoteKeys.Register

/-!
# Relays

A host need not give its registers as such: a function that reads a word from whatever the host
keeps is a register too.
-/

namespace RemoteKeys

/-- A register that reads by a function over the host's own state. -/
structure Relay (σ ε : Type) where
  state : σ
  fetch : σ → Nat → Except ε Word × σ

namespace Relay

/-- Calls the function, and keeps the state that it leaves. -/
def read {σ ε : Type} (r : Relay σ ε) (minor : Nat) : Except ε Word × Relay σ ε :=
  let (result, state) := r.fetch r.state minor
  (result, { r with state })

instance {σ ε : Type} : Register (Relay σ ε) ε := ⟨read⟩

end Relay

end RemoteKeys
