import RemoteKeys.Register

/-!
# Pin rows

A board without a register for its lines wires them to a row of input pins. A read goes through the
pins from the first on, pin `i` for bit `i`, and ends at a pin that cannot be read, which makes the
whole read fail: no word is put together from some of the pins.
-/

namespace RemoteKeys

structure Pin where
  number : Nat
  /-- The level of the pin, or none while it cannot be read. -/
  high? : Option Bool := some false
  deriving DecidableEq

/-- A pin could not be read. -/
inductive PinFailure where
  | unreadable
  deriving DecidableEq

def PinFailure.record : PinFailure → String
  | unreadable => "TestError"

namespace Pin

def readHigh (p : Pin) : Except PinFailure Bool :=
  match p.high? with
  | some high => .ok high
  | none => .error .unreadable

def readLow (p : Pin) : Except PinFailure Bool := p.readHigh.map not

def drive (p : Pin) (high : Bool) : Pin := { p with high? := some high }

def fail (p : Pin) : Pin := { p with high? := none }

end Pin

/-- At most one pin for each bit of a word, in order. -/
structure PinRow where
  pins : List Pin
  fits : pins.length ≤ wordBits

namespace PinRow

/-- Puts a word together from its lowest pin up. -/
def assemble : List Pin → Except PinFailure Word
  | [] => .ok 0
  | pin :: higher => do
    let high ← pin.readHigh
    let above ← assemble higher
    return (above <<< 1) ||| (if high then 1 else 0)

/-- Reads the pins; the minor does not matter. -/
def read (row : PinRow) (_minor : Nat) : Except PinFailure Word × PinRow := (assemble row.pins, row)

instance : Register PinRow PinFailure := ⟨read⟩

/-- A row of `n` pins, all low; a row has no more pins than a word has bits. -/
def ofSize (n : Nat) : PinRow where
  pins := (List.range (min n wordBits)).map fun i => { number := i }
  fits := by rw [List.length_map, List.length_range]; exact Nat.min_le_right ..

def modify (row : PinRow) (i : Nat) (change : Pin → Pin) : PinRow where
  pins := row.pins.modify i change
  fits := by simpa using row.fits

inductive Step where
  | drive (pin : Nat) (high : Bool)
  | fail (pin : Nat)
  | read (minor : Nat)
  | readLow (pin : Nat)
  deriving DecidableEq

inductive Reply where
  | done
  | word (result : Except PinFailure Word)
  | level (result : Except PinFailure Bool)
  | noPin

def step (row : PinRow) : Step → Reply × PinRow
  | .drive i high => (.done, row.modify i (·.drive high))
  | .fail i => (.done, row.modify i Pin.fail)
  | .read minor => let (result, row) := row.read minor; (.word result, row)
  | .readLow i =>
    match row.pins[i]? with
    | some pin => (.level pin.readLow, row)
    | none => (.noPin, row)

/-- The answer to each step in turn, and the row that they leave. -/
def run (row : PinRow) : List Step → List Reply × PinRow
  | [] => ([], row)
  | s :: rest =>
    let (reply, row) := row.step s
    let (replies, row) := run row rest
    (reply :: replies, row)

end PinRow

end RemoteKeys
