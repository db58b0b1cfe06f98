import RemoteKeys.Receiver
import RemoteKeys.Register.Tape

/-!
# Traces

A trace records what a card's register gave, and when. Playing it back runs every recorded reading
through a receiver at its recorded time, which tells what the driver would have reported.
-/

namespace RemoteKeys

structure Sample where
  timeMs : Nat
  /-- The word that was read, or none for a failed read. -/
  reading : Option Word
  deriving DecidableEq

abbrev Trace := List Sample

namespace Trace

def times (t : Trace) : List Instant := t.map fun s => Instant.ofMillis s.timeMs

/-- The readings as a register that gives them again. -/
def tape (t : Trace) : Tape := ⟨t.map Sample.reading⟩

/-- What becomes of each reading, with the time it was recorded at. -/
def play (t : Trace) (setup : Setup) : List (Nat × Outcome) :=
  (t.map Sample.timeMs).zip ((Receiver.start setup t.tape).sampleAll t.times).1

theorem map_fst_play (t : Trace) (setup : Setup) :
    (t.play setup).map Prod.fst = t.map Sample.timeMs := by
  simp [play, List.map_fst_zip, Receiver.length_sampleAll, times]

end Trace

end RemoteKeys
