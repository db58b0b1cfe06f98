/-!
# Register words

A capture card reports the state of its input lines as one 32-bit word. This module names the
measures of a word that the library needs, namely how many bits are set, where the lowest one
stands and how many bits the value takes, and the operation that closes the gaps between
selected bits.

## Main statements

- `Word.getLsbD_lowest`, `Word.getLsbD_of_lt_lowest`: the lowest set bit is set, and none below it
  is.
-/

namespace RemoteKeys

/-- Number of lines that one register word carries. -/
def wordBits : Nat := 32

/-- The least number that no word holds. -/
def wordLimit : Nat := 4294967296

/-- One reading of a card's lines; bit `i` is line `i`. -/
abbrev Word := BitVec 32

/-- The value that the selected lines of a reading spell: the key that is held down. -/
abbrev Code := Word

namespace Word

def ones (w : Word) : Nat := w.cpop.toNat

/-- Index of the lowest set bit, and 32 for zero. -/
def lowest (w : Word) : Nat := w.ctz.toNat

/-- Number of bits needed to write the value in base two, and 0 for zero. -/
def binaryLength (w : Word) : Nat := if w = 0 then 0 else w.toNat.log2 + 1

/--
The bits of `value` that `mask` selects among its lowest `n` bits, moved together: the lowest
selected bit becomes bit 0, the next selected one bit 1, and so on.
-/
def gather : Nat → Word → Word → Word
  | 0, _, _ => 0
  | n + 1, mask, value =>
    let above := gather n (mask >>> 1) (value >>> 1)
    if mask.getLsbD 0 then (above <<< 1) ||| (value &&& 1) else above

/-- The word moved up. It cannot be moved by its width or more. -/
def movedUp? (w : Word) (amount : Nat) : Option Word :=
  if amount < wordBits then some (w <<< amount) else none

/-- The word moved down. It cannot be moved by its width or more. -/
def movedDown? (w : Word) (amount : Nat) : Option Word :=
  if amount < wordBits then some (w >>> amount) else none

/-- The words have a set bit in common. -/
def Meets (a b : Word) : Prop := a &&& b ≠ 0

instance (a b : Word) : Decidable (a.Meets b) := inferInstanceAs (Decidable (a &&& b ≠ 0))

theorem toNat_half_lt {w : Word} (nonzero : w ≠ 0) : (w >>> 1).toNat < w.toNat := by
  have positive : w.toNat ≠ 0 := by simpa [← BitVec.toNat_inj] using nonzero
  rw [BitVec.toNat_ushiftRight, Nat.shiftRight_succ, Nat.shiftRight_zero]
  omega

theorem lowest_lt {w : Word} (h : w ≠ 0) : w.lowest < 32 := by
  have := BitVec.ctz_lt_iff_ne_zero.2 h
  simpa [lowest, BitVec.lt_def] using this

theorem getLsbD_lowest {w : Word} (h : w ≠ 0) : w.getLsbD w.lowest = true :=
  BitVec.getLsbD_true_ctz_of_ne_zero h

theorem getLsbD_of_lt_lowest {w : Word} {i : Nat} (h : i < w.lowest) : w.getLsbD i = false :=
  BitVec.getLsbD_false_of_lt_ctz h

theorem lowest_le {w : Word} {i : Nat} (h : w.getLsbD i = true) : w.lowest ≤ i := by
  apply Nat.le_of_not_lt
  intro below
  rw [getLsbD_of_lt_lowest below] at h
  cases h

end Word

end RemoteKeys
