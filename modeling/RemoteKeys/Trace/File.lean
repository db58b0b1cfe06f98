import RemoteKeys.Trace
import RemoteKeys.Trace.Fault
import RemoteKeys.Text.Numeral

/-!
# Trace files

A trace file holds one sample a line: its time in milliseconds and the word that was read, or
`fail` where the read failed. Times never go back. Blank lines and comments mean nothing.
-/

namespace RemoteKeys.Trace

open Text

/-- Stands for the word of a failed read. -/
def failWord : String := "fail"

/-- Cuts the content of a line into its two words. -/
def fields? (content : Slice) : Option (Slice × Slice) :=
  let (time, reading) := content.cutWord
  if ¬ reading.IsEmpty ∧ reading.chars.all (!isBlank ·) then some (time, reading) else none

def readTime (time : Slice) : Except Fault Nat :=
  match numeral? time.chars with
  | none => .error (.badTime time)
  | some n => if n ≤ timeLimitMs then .ok n else .error (.lateTime time)

def readReading (reading : Slice) : Except Fault (Option Word) :=
  if reading.chars = failWord.toList then .ok none
  else match numeral? reading.chars with
    | none => .error (.badReading reading)
    | some n => if n < wordLimit then .ok (some (BitVec.ofNat _ n))
      else .error (.wideReading reading)

/-- Reads the content of a line whose sample must not be earlier than `earliest`. -/
def readSample (earliest : Nat) (content : Slice) : Except Fault Sample :=
  match fields? content with
  | none => .error (.notSample content)
  | some (time, reading) => do
    let timeMs ← readTime time
    if timeMs < earliest then throw (.earlierTime content)
    return { timeMs, reading := ← readReading reading }

/-- Reads the contents of lines whose first sample must not be earlier than `earliest`. -/
def readContents (earliest : Nat) : List Slice → Except Fault Trace
  | [] => .ok []
  | content :: rest => do
    let sample ← readSample earliest content
    let later ← readContents sample.timeMs rest
    return sample :: later

/-- The trace that a file holds, or the first thing that is wrong with it. -/
def read (source : List Char) : Except Fault Trace := readContents 0 (contents source)

end RemoteKeys.Trace
