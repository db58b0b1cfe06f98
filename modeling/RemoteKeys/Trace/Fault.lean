import RemoteKeys.Instant
import RemoteKeys.Diagnostic
import RemoteKeys.Text.Quoted

/-!
# Faults of trace files

What may be wrong with a trace file, with the slice of the file at fault.
-/

namespace RemoteKeys.Trace

open Text

/-- The latest time that a trace file may name, in milliseconds. -/
def timeLimitMs : Nat := lastTick / 1000000

/-- Something that is wrong with a trace file. -/
inductive Fault where
  /-- A line that does not hold two words. -/
  | notSample (line : Slice)
  | badTime (time : Slice)
  /-- A time behind the latest one that may be named. -/
  | lateTime (time : Slice)
  /-- A time before the one on the line above. -/
  | earlierTime (line : Slice)
  | badReading (reading : Slice)
  /-- A number that is no register word. -/
  | wideReading (reading : Slice)
  deriving DecidableEq

namespace Fault

/-- What the user is told. -/
def message : Fault → String
  | notSample _ => "Expected <time_ms> <raw>"
  | badTime time => "Invalid time " ++ quoted time.chars
  | lateTime time =>
    "Time " ++ String.ofList time.chars ++ " out of range; must be at most " ++ toString timeLimitMs
  | earlierTime _ => "Time goes backwards"
  | badReading reading => "Invalid raw value " ++ quoted reading.chars
  | wideReading reading => String.ofList reading.chars ++ " does not fit the register"

def slice : Fault → Slice
  | notSample s | badTime s | lateTime s | earlierTime s | badReading s | wideReading s => s

def diagnostic (fault : Fault) : Diagnostic :=
  { message := fault.message, span? := some fault.slice.span }

end Fault

end RemoteKeys.Trace
