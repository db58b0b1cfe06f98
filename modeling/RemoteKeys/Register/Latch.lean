import RemoteKeys.Register

/-!
# Latches

A latch holds its word until it changes to another one. Results can also be queued on it, words and
failures alike: they are read first, one by one, and after them the word that it holds repeats. It
keeps a list of the minors that it was asked for.
-/

namespace RemoteKeys

/-- A read that was queued to fail. -/
inductive LatchFailure where
  | queued
  deriving DecidableEq

def LatchFailure.record : LatchFailure → String
  | queued => "TestError"

/-- A register that repeats its word, with results that are read before it. -/
structure Latch where
  word : Word
  queue : List (Except LatchFailure Word) := []
  /-- The minor of each read so far, the latest first. -/
  history : List Nat := []

namespace Latch

/-- Changes to another word, and drops what is queued. -/
def change (l : Latch) (word : Word) : Latch := { l with word, queue := [] }

def queueWord (l : Latch) (word : Word) : Latch := { l with queue := l.queue ++ [.ok word] }

def queueFailure (l : Latch) : Latch := { l with queue := l.queue ++ [.error .queued] }

/-- The minor of each read so far, in order. -/
def asked (l : Latch) : List Nat := l.history.reverse

def reads (l : Latch) : Nat := l.history.length

/-- Takes the next queued result, or the word that is held where nothing is queued. -/
def read (l : Latch) (minor : Nat) : Except LatchFailure Word × Latch :=
  let history := minor :: l.history
  match l.queue with
  | [] => (.ok l.word, { l with history })
  | result :: queue => (result, { l with queue, history })

instance : Register Latch LatchFailure := ⟨read⟩

theorem asked_read (l : Latch) (minor : Nat) : (l.read minor).2.asked = l.asked ++ [minor] := by
  unfold read; split <;> exact List.reverse_cons

end Latch

end RemoteKeys
