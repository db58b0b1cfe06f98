import RemoteKeys.Proofs.Word.Extent
import RemoteKeys.Proofs.Word.Packing

/-!
# The normal form of a key mask

A key mask is kept shifted down to its lowest line, with the amount that it was shifted by. No line
is lost on the way down, since there is none below the lowest one, and none on the way up again,
since the mask reaches from there to its highest line. So a mask and its normal form are two ways to
write down the same choice of lines, and there is nothing to check about a normal form but that its
lowest bit is set and that it fits the word once it is shifted up.

## Main result

`KeyMask.normal_form`: every word but zero has a normal form, from which it comes back whole, and
every normal form is that of exactly one word.
-/

namespace RemoteKeys

namespace Word

variable {w : Word} {n : Nat}

/-- The word is shifted down as far as it goes, and fits the width of a word when it is shifted up
by `n`. -/
structure Normal (w : Word) (n : Nat) : Prop where
  lowest_set : w.getLsbD 0 = true
  fits : n + w.binaryLength ≤ wordBits

/-! ### Up and down -/

private theorem toNat_shiftLeft_of_fits (fits : n + w.binaryLength ≤ wordBits) :
    (w <<< n).toNat = w.toNat * 2 ^ n := by
  have small : w.toNat * 2 ^ n < 2 ^ wordBits := calc
    w.toNat * 2 ^ n < 2 ^ w.binaryLength * 2 ^ n :=
      Nat.mul_lt_mul_of_pos_right w.toNat_lt_binaryLength (Nat.two_pow_pos n)
    _ = 2 ^ (n + w.binaryLength) := by rw [Nat.pow_add, Nat.mul_comm]
    _ ≤ 2 ^ wordBits := Nat.pow_le_pow_right Nat.two_pos fits
  rw [BitVec.toNat_shiftLeft, Nat.shiftLeft_eq]
  exact Nat.mod_eq_of_lt small

private theorem ushiftRight_of_shiftLeft_of_fits (fits : n + w.binaryLength ≤ wordBits) :
    (w <<< n) >>> n = w := by
  apply BitVec.eq_of_toNat_eq
  rw [BitVec.toNat_ushiftRight, toNat_shiftLeft_of_fits fits, Nat.shiftRight_eq_div_pow,
    Nat.mul_div_cancel _ (Nat.two_pow_pos n)]

private theorem shiftLeft_of_ushiftRight (clear : ∀ i < n, w.getLsbD i = false) :
    (w >>> n) <<< n = w := by
  apply BitVec.eq_of_getLsbD_eq
  intro i inside
  rw [BitVec.getLsbD_shiftLeft, BitVec.getLsbD_ushiftRight]
  by_cases below : i < n
  · -- What is shifted in from below was clear before.
    simp [below, clear i below]
  · simp [below, inside, Nat.add_sub_cancel' (Nat.le_of_not_lt below)]

private theorem ones_ushiftRight (clear : ∀ i < n, w.getLsbD i = false) :
    ones (w >>> n) = w.ones := by
  rw [← length_positions, ← length_positions, positions_eq_map_add clear, List.length_map]

namespace Normal

private theorem lt (normal : w.Normal n) : n < wordBits := by
  have nonzero : w ≠ 0 := by
    rintro rfl
    cases normal.lowest_set
  have fits := normal.fits
  rw [binaryLength, if_neg nonzero] at fits
  omega

private theorem getLsbD_shiftLeft (normal : w.Normal n) : (w <<< n).getLsbD n = true := by
  have inside : n < 32 := normal.lt
  simp [inside, normal.lowest_set]

private theorem shiftLeft_ne_zero (normal : w.Normal n) : w <<< n ≠ 0 := by
  intro zero
  have selected := normal.getLsbD_shiftLeft
  rw [zero] at selected
  simp at selected

private theorem lowest_shiftLeft (normal : w.Normal n) : lowest (w <<< n) = n := by
  -- Bit `n` is set, and the bits below it are those that were shifted in.
  apply Nat.le_antisymm (lowest_le normal.getLsbD_shiftLeft)
  apply Nat.le_of_not_lt
  intro below
  have selected := getLsbD_lowest normal.shiftLeft_ne_zero
  simp [below] at selected

end Normal

end Word

namespace KeyMask

private theorem normal (m : KeyMask) : m.bits.Normal m.offset where
  lowest_set := m.getLsbD_bits_zero
  fits := by
    -- The highest line is in the word, and the mask reaches no further.
    have highest := Word.getLsbD_log2 m.ne_zero
    have inside : m.word.toNat.log2 < wordBits := BitVec.lt_of_getLsbD highest
    have above : m.offset ≤ m.word.toNat.log2 := Word.lowest_le highest
    have reach : m.bits.binaryLength = m.word.toNat.log2 - m.offset + 1 :=
      m.reach_eq_extent.trans (Word.extent_eq m.ne_zero)
    omega

private theorem bits_shiftLeft_offset (m : KeyMask) : m.bits <<< m.offset = m.word :=
  Word.shiftLeft_of_ushiftRight fun _ below => Word.getLsbD_of_lt_lowest below

private theorem ones_bits (m : KeyMask) : m.bits.ones = m.width :=
  Word.ones_ushiftRight fun _ below => Word.getLsbD_of_lt_lowest below

private theorem width_pos (m : KeyMask) : 0 < m.width := by
  rw [width, ← Word.length_positions]
  exact List.length_pos_of_mem (Word.mem_positions_wordBits.mpr (Word.getLsbD_lowest m.ne_zero))

private theorem bits_offset_of_normal {bits : Word} {n : Nat} (normal : bits.Normal n) (m : KeyMask)
    (word : m.word = bits <<< n) : m.bits = bits ∧ m.offset = n := by
  have offset_eq : m.offset = n := by rw [offset, word, normal.lowest_shiftLeft]
  refine ⟨?_, offset_eq⟩
  rw [KeyMask.bits, offset_eq, word, Word.ushiftRight_of_shiftLeft_of_fits normal.fits]

/-! ### Main result -/

/--
There is a mask for every word but zero. Its bits are the word, shifted down by the index of the
lowest set bit, and take up no more room than there is above that index; they are as many as the
word has, and shifted up again they are the word, of which no bit is lost. No shift is by the width
of a word or more. The other way round, bits of which the lowest one is set, with an amount by which
they can be shifted up in a word, are those of the mask of just one word.
-/
theorem normal_form :
    (∀ w, ofWord? w = none ↔ w = 0) ∧
    (∀ w, w ≠ 0 → ∃ m, ofWord? w = some m ∧
      (m.bits.getLsbD 0 = true ∧ m.offset + m.bits.binaryLength ≤ 32) ∧
      (w.getLsbD m.offset = true ∧ ∀ i < m.offset, w.getLsbD i = false) ∧
      (m.width = (w.positions wordBits).length ∧ m.bits.ones = m.width ∧ 1 ≤ m.width ∧
        m.width ≤ 32) ∧
      w.movedDown? m.offset = some m.bits ∧ m.bits.movedUp? m.offset = some m.word ∧ m.word = w ∧
      m.bits.toNat * 2 ^ m.offset = w.toNat) ∧
    ∀ (bits : Word) n, bits.getLsbD 0 = true → n + bits.binaryLength ≤ 32 →
      ∃! w, ∃ m, ofWord? w = some m ∧ m.bits = bits ∧ m.offset = n := by
  refine ⟨fun _ => ofWord?_eq_none_iff, fun w nonzero => ?_, fun bits n lowest_set fits => ?_⟩
  · obtain ⟨m, rfl⟩ : ∃ m : KeyMask, m.word = w := ⟨⟨w, nonzero⟩, rfl⟩
    have moved_up : m.bits.movedUp? m.offset = some (m.bits <<< m.offset) := if_pos m.offset_lt
    have size := Word.toNat_shiftLeft_of_fits m.normal.fits
    rw [bits_shiftLeft_offset] at moved_up size
    refine ⟨m, ofWord?_eq_some_iff.mpr rfl, ⟨m.normal.lowest_set, m.normal.fits⟩, ?_, ?_, ?_⟩
    · exact ⟨Word.getLsbD_lowest nonzero, fun _ below => Word.getLsbD_of_lt_lowest below⟩
    · exact ⟨m.word.length_positions.symm, m.ones_bits, m.width_pos, m.word.ones_le⟩
    · exact ⟨if_pos m.offset_lt, moved_up, rfl, size.symm⟩
  · -- The word is the bits shifted up, and any other word with this mask is that too.
    have normal : bits.Normal n := ⟨lowest_set, fits⟩
    refine ⟨bits <<< n, ⟨⟨_, normal.shiftLeft_ne_zero⟩, ofWord?_eq_some_iff.mpr rfl, ?_⟩, ?_⟩
    · exact bits_offset_of_normal normal _ rfl
    · rintro w ⟨m, made, rfl, rfl⟩
      rw [bits_shiftLeft_offset, ofWord?_eq_some_iff.mp made]

/-- Six lines with gaps between them, and the highest line of a word alone. -/
theorem normal_form_lines :
    ((0xf88000 : Word) ≠ 0 ∧ ∃ m, ofWord? 0xf88000 = some m ∧ m.width = 6 ∧
      m.bits.movedUp? m.offset = some 0xf88000) ∧
    (1 : Word).getLsbD 0 = true ∧ 31 + Word.binaryLength 1 ≤ 32 ∧
      ∃! w, ∃ m, ofWord? w = some m ∧ m.bits = 1 ∧ m.offset = 31 := by
  obtain ⟨-, forth, back⟩ := normal_form
  have nonzero : (0xf88000 : Word) ≠ 0 := by decide
  have lowest_set : (1 : Word).getLsbD 0 = true := by decide
  have fits : 31 + Word.binaryLength 1 ≤ 32 := by decide
  obtain ⟨m, made, -, -, ⟨width, -⟩, -, moved_up, word, -⟩ := forth _ nonzero
  exact ⟨⟨nonzero, m, made, width.trans (by decide), word ▸ moved_up⟩, lowest_set, fits,
    back 1 31 lowest_set fits⟩

end KeyMask

end RemoteKeys
