import Mathlib.Data.Nat.Init
import RemoteKeys.Proofs.Word.Extent
import RemoteKeys.Proofs.Word.Scatter

/-!
# Bits side by side

Gathering moves a selected bit down to its rank; shifting the mask down to its lowest bit moves it
to its distance from there. The rank is never more than the distance, and the two are the same for
all selected bits exactly where no bit between them is left out. They are compared bit by bit, from
the lowest selected one up.

## Main statements

- `Word.contiguous_iff_rank`: the set bits are side by side where rank and distance are the same.
- `Word.contiguous_iff_extent`: it is enough to look at the highest one, so that the counts tell.
- `Word.toNat_gather_le`: gathering never gives more than the selected bits do where they are.
-/

namespace RemoteKeys.Word

/-- No bit between two set ones is left out. -/
def Contiguous (w : Word) : Prop :=
  ∀ i j k, i ≤ j → j ≤ k → w.getLsbD i = true → w.getLsbD k = true → w.getLsbD j = true

variable {w : Word} {i : Nat}

/-! ### Ranks and distances -/

private theorem rank_add_one (w : Word) (i : Nat) :
    w.rank (i + 1) = w.rank i + if w.getLsbD i then 1 else 0 :=
  w.length_positions_add_one i

private theorem rank_lowest (w : Word) : w.rank w.lowest = 0 := by
  rw [rank, List.length_eq_zero_iff, positions, List.filter_eq_nil_iff]
  intro i below
  rw [getLsbD_of_lt_lowest (List.mem_range.mp below)]
  exact Bool.false_ne_true

private theorem rank_add_lowest_le (above : w.lowest ≤ i) : w.rank i + w.lowest ≤ i := by
  -- From the lowest set bit up: each bit adds one to the distance, and to the rank only if it is
  -- set.
  induction i, above using Nat.le_induction with
  | base => rw [rank_lowest, Nat.zero_add]
  | succ i _ ih =>
    rw [rank_add_one]
    split <;> omega

private theorem rank_add_lowest_eq_iff (above : w.lowest ≤ i) :
    w.rank i + w.lowest = i ↔ ∀ j, w.lowest ≤ j → j < i → w.getLsbD j = true := by
  induction i, above using Nat.le_induction with
  | base =>
    rw [rank_lowest, Nat.zero_add]
    exact iff_of_true rfl fun j reached below => absurd below (Nat.not_lt.mpr reached)
  | succ i above ih =>
    have never_more := rank_add_lowest_le above
    constructor
    · intro equal j reached below
      -- A bit that is left out would put the rank behind the distance, and it never catches up.
      rw [rank_add_one] at equal
      split at equal
      next selected =>
        rcases Nat.lt_succ_iff_lt_or_eq.mp below with lower | rfl
        · exact ih.mp (by omega) j reached lower
        · exact selected
      · omega
    · intro filled
      have lower := ih.mpr fun j reached below => filled j reached (Nat.lt_succ_of_lt below)
      rw [rank_add_one, if_pos (filled i above (Nat.lt_succ_self i))]
      omega

theorem contiguous_iff_rank :
    w.Contiguous ↔ ∀ i, w.getLsbD i = true → w.rank i + w.lowest = i := by
  constructor
  · intro contiguous i selected
    have nonzero : w ≠ 0 := by
      rintro rfl
      simp at selected
    refine (rank_add_lowest_eq_iff (lowest_le selected)).mpr fun j reached below => ?_
    exact contiguous _ j i reached (Nat.le_of_lt below) (getLsbD_lowest nonzero) selected
  · intro ranks i j k low high selected_i selected_k
    rcases Nat.eq_or_lt_of_le high with rfl | below
    · exact selected_k
    · -- Nothing is left out down to the lowest set bit, which is no higher than bit `i`.
      have filled := (rank_add_lowest_eq_iff (lowest_le selected_k)).mp (ranks k selected_k)
      exact filled j (Nat.le_trans (lowest_le selected_i) low) below

/-! ### The highest set bit -/

private theorem rank_log2 (nonzero : w ≠ 0) : w.rank w.toNat.log2 + 1 = w.ones := by
  have last := getLast?_positions nonzero
  rw [List.getLast?_eq_getElem?] at last
  have present := (List.getElem?_eq_some_iff.mp last).1
  rw [length_positions] at last present
  rw [rank_of_getElem?_positions last]
  omega

theorem contiguous_iff_extent (nonzero : w ≠ 0) : w.Contiguous ↔ w.extent = w.ones := by
  have selected := getLsbD_log2 nonzero
  have reached := lowest_le selected
  rw [extent_eq nonzero, ← rank_log2 nonzero]
  constructor
  · intro contiguous
    have top := contiguous_iff_rank.mp contiguous _ selected
    omega
  · intro same
    -- Every bit up to the highest one is set, and no other bit is.
    have filled := (rank_add_lowest_eq_iff reached).mp (by omega)
    intro i j k low high selected_i selected_k
    rcases Nat.eq_or_lt_of_le (Nat.le_trans high (le_log2 selected_k)) with rfl | below
    · exact selected
    · exact filled j (Nat.le_trans (lowest_le selected_i) low) below

/-! ### Gathering moves further down -/

private theorem toNat_and_one (w : Word) : (w &&& 1).toNat = w.toNat % 2 := by
  rw [BitVec.toNat_and]
  exact Nat.and_one_is_mod _

private theorem toNat_and_mod_two {mask : Word} (selected : mask.getLsbD 0 = true) (value : Word) :
    (value &&& mask).toNat % 2 = value.toNat % 2 := by
  have lowest : mask &&& 1 = 1 := by
    apply BitVec.eq_of_getLsbD_eq
    intro i _
    cases i <;> simp [selected]
  rw [← toNat_and_one, ← toNat_and_one, BitVec.and_assoc, lowest]

/-- A word that is moved up by one has room for the lowest bit of another one. -/
theorem toNat_or_and_one {above : Word} (room : 2 * above.toNat < 2 ^ 32) (value : Word) :
    (above <<< 1 ||| (value &&& 1)).toNat = 2 * above.toNat + value.toNat % 2 := by
  have moved : above.toNat <<< 1 = 2 * above.toNat := by
    rw [Nat.shiftLeft_eq, Nat.pow_one, Nat.mul_comm]
  rw [BitVec.toNat_or, BitVec.toNat_shiftLeft, moved, Nat.mod_eq_of_lt room, ← moved, toNat_and_one,
    ← Nat.shiftLeft_add_eq_or_of_lt (Nat.mod_lt _ Nat.two_pos)]

theorem toNat_gather_le (n : Nat) (mask value : Word) :
    (gather n mask value).toNat ≤ (value &&& mask).toNat := by
  induction n generalizing mask value with
  | zero => exact Nat.zero_le _
  | succ n ih =>
    -- Above the lowest bit, half of what is compared.
    have above := ih (mask >>> 1) (value >>> 1)
    rw [← BitVec.ushiftRight_and_distrib, BitVec.toNat_ushiftRight, Nat.shiftRight_one] at above
    have whole := (value &&& mask).isLt
    rw [gather]
    split
    next selected =>
      have lowest := toNat_and_mod_two selected value
      rw [toNat_or_and_one (by omega)]
      omega
    · omega

end RemoteKeys.Word
