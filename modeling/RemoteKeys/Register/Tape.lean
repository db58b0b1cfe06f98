import RemoteKeys.Register

/-!
# Tapes

A tape holds what a register gave while it was recorded, words and failures alike, and gives it
again in that order, once.
-/

namespace RemoteKeys

/-- Why a tape gave no word. -/
inductive TapeFailure where
  /-- The read failed when the tape was recorded. -/
  | onTape
  /-- Nothing is left on the tape. -/
  | atEnd
  deriving DecidableEq

def TapeFailure.record : TapeFailure → String
  | onTape => "Recorded"
  | atEnd => "Exhausted"

/-- Recorded readings that have not been given yet; `none` is a failed one. -/
structure Tape where
  readings : List (Option Word)
  deriving DecidableEq

namespace Tape

def size (t : Tape) : Nat := t.readings.length

/-- Gives the next reading; the minor does not matter. -/
def read (t : Tape) (_minor : Nat) : Except TapeFailure Word × Tape :=
  match t.readings with
  | [] => (.error .atEnd, t)
  | none :: rest => (.error .onTape, ⟨rest⟩)
  | some word :: rest => (.ok word, ⟨rest⟩)

instance : Register Tape TapeFailure := ⟨read⟩

end Tape

end RemoteKeys
