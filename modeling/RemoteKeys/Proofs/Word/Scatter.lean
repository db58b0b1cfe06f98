import Mathlib.Data.Set.Card
import RemoteKeys.Proofs.Word.Gather

/-!
# Scattering a code over the selected bits

Gathering the bits that a mask selects is undone by moving them apart again. `Word.scatter` walks
down the mask as `Word.gather` does, and takes a bit off the code wherever the mask has one. A
selected bit takes the bit of the code whose index is its rank, the number of selected bits below
it.

## Main statements

- `Word.getLsbD_scatter`: the bits of the result, one by one.
- `Word.gather_scatter`, `Word.scatter_gather`: codes of the mask's width, and words that the mask
  selects whole, are two descriptions of the same thing.
- `Word.ncard_selected`: so there are as many of the ones as of the others.
-/

namespace RemoteKeys.Word

/-- Number of set bits below bit `i`. -/
def rank (mask : Word) (i : Nat) : Nat := (mask.positions i).length

/-- The lowest bits of `code` moved apart to the bits that `mask` selects among its lowest `n`. -/
def scatter : Nat → Word → Code → Word
  | 0, _, _ => 0
  | n + 1, mask, code =>
    if mask.getLsbD 0 then (scatter n (mask >>> 1) (code >>> 1) <<< 1) ||| (code &&& 1)
    else scatter n (mask >>> 1) code <<< 1

/-! ### Ranks -/

private theorem rank_succ (mask : Word) (i : Nat) :
    mask.rank (i + 1) = (if mask.getLsbD 0 then 1 else 0) + rank (mask >>> 1) i := by
  rw [rank, positions_succ, List.length_append, List.length_map, rank]
  split <;> rfl

theorem getElem?_positions_rank {mask : Word} {n i : Nat} (inside : i < n)
    (selected : mask.getLsbD i = true) : (mask.positions n)[mask.rank i]? = some i := by
  obtain ⟨k, rfl⟩ : ∃ k, n = i + (k + 1) := ⟨n - i - 1, by omega⟩
  -- The positions below bit `i` come first, and then its own.
  rw [positions, List.range_add, List.filter_append, List.range_succ_eq_map, List.map_cons,
    List.filter_cons_of_pos (by simpa using selected), rank, positions,
    List.getElem?_append_right (Nat.le_refl _),
    Nat.sub_self, List.getElem?_cons_zero, Nat.add_zero]

theorem rank_of_getElem?_positions {mask : Word} {n i k : Nat}
    (position : (mask.positions n)[k]? = some i) : mask.rank i = k := by
  obtain ⟨inside, selected⟩ := mem_positions.mp (List.mem_of_getElem? position)
  have distinct : (mask.positions n).Nodup := List.nodup_range.filter _
  have same := getElem?_positions_rank inside selected
  have short : mask.rank i < (mask.positions n).length := (List.getElem?_eq_some_iff.mp same).1
  exact (List.getElem?_inj short distinct).mp (same.trans position.symm)

/-! ### Bits of a scattered code -/

theorem getLsbD_scatter {n : Nat} (fits : n ≤ wordBits) (mask : Word) (code : Code) (i : Nat) :
    (scatter n mask code).getLsbD i =
      (decide (i < n) && mask.getLsbD i && code.getLsbD (mask.rank i)) := by
  rw [wordBits] at fits
  induction n generalizing mask code i with
  | zero => simp [scatter]
  | succ n ih =>
    cases i with
    | zero =>
      have lowest : mask.rank 0 = 0 := rfl
      by_cases selected : mask.getLsbD 0 = true
      · rw [scatter, if_pos selected, selected, lowest]
        simp
      · rw [scatter, if_neg selected, Bool.eq_false_iff.mpr selected]
        simp
    | succ i =>
      have above : (mask >>> 1).getLsbD i = mask.getLsbD (i + 1) := by
        rw [BitVec.getLsbD_ushiftRight, Nat.add_comm]
      -- A bit that is shifted out of the word is not among the lowest `n + 1`.
      have shifted (w : Word) : (w <<< 1).getLsbD (i + 1) =
          (decide (i + 1 < 32) && w.getLsbD i) := by
        simp
      have inside : (decide (i + 1 < 32) && decide (i < n)) = decide (i + 1 < n + 1) := by
        rw [← Bool.decide_and, decide_eq_decide]
        omega
      by_cases selected : mask.getLsbD 0 = true
      · have lowest_only : (code &&& 1).getLsbD (i + 1) = false := by simp
        rw [scatter, if_pos selected, BitVec.getLsbD_or, lowest_only, Bool.or_false, shifted,
          ih (by omega), above, rank_succ, if_pos selected, BitVec.getLsbD_ushiftRight, ← inside]
        simp only [Bool.and_assoc]
      · rw [scatter, if_neg selected, shifted, ih (by omega), above, rank_succ, if_neg selected,
          Nat.zero_add, ← inside]
        simp only [Bool.and_assoc]

theorem gather_scatter {mask : Word} {code : Code} (fits : code.toNat < 2 ^ mask.ones) :
    gather wordBits mask (scatter wordBits mask code) = code := by
  apply BitVec.eq_of_getLsbD_eq
  intro k _
  rw [getLsbD_gather (Nat.le_refl _)]
  cases position : (mask.positions wordBits)[k]? with
  | none =>
    -- The code has no bit where no selected one is left.
    rw [List.getElem?_eq_none_iff, length_positions] at position
    rw [Option.any_none, ← BitVec.testBit_toNat, Nat.testBit_lt_two_pow]
    exact Nat.lt_of_lt_of_le fits (Nat.pow_le_pow_right Nat.two_pos position)
  | some i =>
    obtain ⟨inside, selected⟩ := mem_positions.mp (List.mem_of_getElem? position)
    rw [Option.any_some, getLsbD_scatter (Nat.le_refl _), selected,
      rank_of_getElem?_positions position]
    simp [inside]

private theorem scatter_gather {mask w : Word} (within : w &&& mask = w) :
    scatter wordBits mask (gather wordBits mask w) = w := by
  apply BitVec.eq_of_getLsbD_eq
  intro i inside
  rw [getLsbD_scatter (Nat.le_refl _), getLsbD_gather (Nat.le_refl _)]
  cases selected : mask.getLsbD i with
  | false =>
    have clear := congrArg (fun w : Word => w.getLsbD i) within
    simp only [BitVec.getLsbD_and, selected, Bool.and_false] at clear
    rw [Bool.and_false, Bool.false_and, clear]
  | true =>
    rw [getElem?_positions_rank (show i < wordBits from inside) selected]
    simp [wordBits, inside]

/-! ### Counting -/

private theorem scatter_and (mask : Word) (code : Code) :
    scatter wordBits mask code &&& mask = scatter wordBits mask code := by
  apply BitVec.eq_of_getLsbD_eq
  intro i _
  rw [BitVec.getLsbD_and, getLsbD_scatter (Nat.le_refl _)]
  cases mask.getLsbD i <;> simp

/-- There are as many words that a mask selects whole as codes of its width. -/
theorem ncard_selected (mask : Word) : {w : Word | w &&& mask = w}.ncard = 2 ^ mask.ones := by
  have fits {n : Nat} (below : n < 2 ^ mask.ones) : (BitVec.ofNat 32 n).toNat = n := by
    rw [BitVec.toNat_ofNat, Nat.mod_eq_of_lt]
    exact Nat.lt_of_lt_of_le below (Nat.pow_le_pow_right Nat.two_pos mask.ones_le)
  have scattered : {w : Word | w &&& mask = w} =
      (fun n => scatter wordBits mask (BitVec.ofNat 32 n)) ''
        (Finset.range (2 ^ mask.ones) : Set Nat) := by
    ext w
    constructor
    · intro within
      refine ⟨(gather wordBits mask w).toNat, by simpa using toNat_gather_lt_ones mask w, ?_⟩
      dsimp only
      rw [BitVec.ofNat_toNat, BitVec.setWidth_eq, scatter_gather within]
    · rintro ⟨n, -, rfl⟩
      exact scatter_and mask _
  rw [scattered, Set.InjOn.ncard_image, Set.ncard_coe_finset, Finset.card_range]
  intro a small_a b small_b same
  rw [Finset.coe_range, Set.mem_Iio] at small_a small_b
  have gathered := congrArg (gather wordBits mask) same
  dsimp only at gathered
  rw [gather_scatter (by rwa [fits small_a]), gather_scatter (by rwa [fits small_b])] at gathered
  rw [← fits small_a, gathered, fits small_b]

end RemoteKeys.Word
