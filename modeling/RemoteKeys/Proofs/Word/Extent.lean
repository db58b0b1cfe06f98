import Mathlib.Data.Nat.Log
import RemoteKeys.KeyMask
import RemoteKeys.Proofs.Word.Gather

/-!
# From the lowest set bit to the highest

A window over the selected lines needs a bit for each line from the lowest selected one to the
highest. The code counts the bits of the mask once it is shifted down; here the count is said of the
mask itself.

## Main statement

`KeyMask.reach_eq_extent`: shifted down, a mask takes as many bits as its lines are apart.
-/

namespace RemoteKeys

/-- Number of bits from the lowest set one to the highest, both of them counted; 0 for zero. -/
def Word.extent (w : Word) : Nat :=
  match (w.positions wordBits).head?, (w.positions wordBits).getLast? with
  | some low, some high => high - low + 1
  | _, _ => 0

namespace Word

variable {w : Word}

theorem toNat_lt_binaryLength (w : Word) : w.toNat < 2 ^ w.binaryLength := by
  unfold binaryLength
  split
  · next zero => simp [zero]
  · exact Nat.lt_log2_self

private theorem head?_positions (nonzero : w ≠ 0) :
    (w.positions wordBits).head? = some w.lowest := by
  rw [positions, List.head?_filter, List.find?_range_eq_some]
  refine ⟨getLsbD_lowest nonzero, List.mem_range.mpr (lowest_lt nonzero), fun j below => ?_⟩
  rw [getLsbD_of_lt_lowest below]
  rfl

theorem le_log2 {i : Nat} (selected : w.getLsbD i = true) : i ≤ w.toNat.log2 := by
  apply Nat.le_of_not_lt
  intro above
  have inside : w.toNat < 2 ^ i :=
    Nat.lt_of_lt_of_le Nat.lt_log2_self (Nat.pow_le_pow_right Nat.two_pos above)
  rw [← BitVec.testBit_toNat, Nat.testBit_lt_two_pow inside] at selected
  cases selected

theorem getLsbD_log2 (nonzero : w ≠ 0) : w.getLsbD w.toNat.log2 = true := by
  have positive : w.toNat ≠ 0 := by simpa [← BitVec.toNat_inj] using nonzero
  rw [← BitVec.testBit_toNat]
  exact Nat.testBit_log2 positive

theorem getLast?_positions (nonzero : w ≠ 0) :
    (w.positions wordBits).getLast? = some w.toNat.log2 := by
  have highest := getLsbD_log2 nonzero
  have inside : w.toNat.log2 < 32 := BitVec.lt_of_getLsbD highest
  have behind : ((List.range (31 - w.toNat.log2)).map (w.toNat.log2 + 1 + ·)).filter w.getLsbD =
      [] := by
    rw [List.filter_eq_nil_iff]
    intro i mem selected
    obtain ⟨k, -, rfl⟩ := List.mem_map.mp mem
    have not_above := le_log2 selected
    omega
  have split : wordBits = (w.toNat.log2 + 1) + (31 - w.toNat.log2) := by
    rw [wordBits]
    omega
  rw [positions, split, List.range_add, List.filter_append, behind, List.append_nil,
    List.range_succ, List.filter_append, List.filter_cons_of_pos highest, List.filter_nil]
  exact List.getLast?_concat ..

theorem extent_eq (nonzero : w ≠ 0) : w.extent = w.toNat.log2 - w.lowest + 1 := by
  rw [extent, head?_positions nonzero, getLast?_positions nonzero]

end Word

theorem KeyMask.reach_eq_extent (m : KeyMask) : m.reach = m.word.extent := by
  have bits_nonzero : m.bits ≠ 0 := by
    intro zero
    have lowest := m.getLsbD_bits_zero
    rw [zero] at lowest
    cases lowest
  rw [reach, Word.binaryLength, if_neg bits_nonzero, Word.extent_eq m.ne_zero, bits,
    BitVec.toNat_ushiftRight, Nat.shiftRight_eq_div_pow, Nat.log2_eq_log_two, Nat.log_div_base_pow,
    ← Nat.log2_eq_log_two]
  rfl

end RemoteKeys
