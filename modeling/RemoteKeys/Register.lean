import RemoteKeys.Word

/-!
# Registers

A register is anything that can be read for the word of a card. A read may fail, and it may change
the register; it never waits.
-/

namespace RemoteKeys

/-- Reading a register of type `ρ` gives a word or a failure of type `ε`, and the register
afterwards. -/
class Register (ρ : Type) (ε : outParam Type) where
  /-- Reads the word of the card with that minor. -/
  read : ρ → Nat → Except ε Word × ρ

end RemoteKeys
