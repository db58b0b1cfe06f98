import RemoteKeys.Word

/-!
# Key masks

A key mask says which lines of the register carry the key code. Its lowest selected line is its
`offset`; what is left after shifting the mask down by that much is its `bits`. There are two ways
to read a code off a word: `pack` closes the gaps between the selected lines, `window` only
shifts them down and leaves the gaps as zeros. What `pack` finds from the top down, `packUp?` finds
from the bottom up, and never moves a word by its width or more.
-/

namespace RemoteKeys

/-- A choice of at least one register line. -/
structure KeyMask where
  word : Word
  ne_zero : word ≠ 0
  deriving DecidableEq

namespace KeyMask

/-- The mask that selects the set bits of a word; there is none for zero. -/
def ofWord? (w : Word) : Option KeyMask :=
  if h : w = 0 then none else some ⟨w, h⟩

/-- Index of the lowest selected line. -/
def offset (m : KeyMask) : Nat := m.word.lowest

/-- The mask shifted down until its lowest selected line is bit 0. -/
def bits (m : KeyMask) : Word := m.word >>> m.offset

/-- Number of selected lines, which is the width of a packed code. -/
def width (m : KeyMask) : Nat := m.word.ones

/-- Number of lines from the lowest selected one to the highest, which is the width of a window. -/
def reach (m : KeyMask) : Nat := m.bits.binaryLength

/-- The selected lines of `raw` in their order, without the gaps between them. -/
def pack (m : KeyMask) (raw : Word) : Code := Word.gather wordBits m.word raw

/-- Walks up the mask and the value, and moves each selected bit to the next place of the code. -/
def packOnto? (code : Code) (place : Nat) (mask value : Word) : Option Code :=
  if mask = 0 then some code
  else if mask.getLsbD 0 then do
    let bit ← (value &&& 1).movedUp? place
    packOnto? (code ||| bit) (place + 1) (mask >>> 1) (value >>> 1)
  else packOnto? code place (mask >>> 1) (value >>> 1)
termination_by mask.toNat
decreasing_by all_goals exact Word.toNat_half_lt ‹_›

/-- Packs from the bottom up, from the lowest selected line on. -/
def packUp? (m : KeyMask) (raw : Word) : Option Code := do
  let bits ← m.word.movedDown? m.offset
  let value ← raw.movedDown? m.offset
  packOnto? 0 0 bits value

/-- The selected lines of `raw` shifted down together, with zeros in the gaps between them. -/
def window (m : KeyMask) (raw : Word) : Code := (raw >>> m.offset) &&& m.bits

theorem ofWord?_eq_none_iff {w : Word} : ofWord? w = none ↔ w = 0 := by
  simp [ofWord?]

theorem ofWord?_eq_some_iff {w : Word} {m : KeyMask} : ofWord? w = some m ↔ m.word = w := by
  unfold ofWord?
  split
  · next h => simp only [reduceCtorEq, false_iff]; exact fun e => m.ne_zero (e.trans h)
  · next h => simp only [Option.some.injEq]; exact ⟨fun e => e ▸ rfl, fun e => by cases m; simp_all⟩

theorem offset_lt (m : KeyMask) : m.offset < 32 := Word.lowest_lt m.ne_zero

theorem getLsbD_bits_zero (m : KeyMask) : m.bits.getLsbD 0 = true := by
  simpa [bits, offset] using Word.getLsbD_lowest m.ne_zero

end KeyMask

end RemoteKeys
