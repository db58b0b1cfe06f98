import Mathlib.Algebra.Group.Nat.Defs
import RemoteKeys.Word

/-!
# Gathering the selected bits

`Word.gather` walks down the mask and the value together and puts one bit after the other in front.
What comes of it is said by the positions of the mask's set bits: bit `k` of the result is the
value's bit at the `k`-th of them. The positions of a mask shifted down by one are those of the mask
itself, one lower, which is what the walk does too.

## Main statements

- `Word.getLsbD_gather`: the bits of the result, one by one.
- `Word.gather_eq_iff`: two values are gathered alike when they agree on the selected bits.
- `Word.toNat_gather_lt`: the result takes one bit for each selected one.
-/

namespace RemoteKeys.Word

/-- The positions of the set bits among the lowest `n`, in ascending order. -/
def positions (n : Nat) (w : Word) : List Nat := (List.range n).filter w.getLsbD

theorem mem_positions {n i : Nat} {w : Word} : i ∈ w.positions n ↔ i < n ∧ w.getLsbD i = true := by
  simp [positions]

theorem mem_positions_wordBits {i : Nat} {w : Word} :
    i ∈ w.positions wordBits ↔ w.getLsbD i = true := by
  rw [mem_positions]
  exact ⟨And.right, fun selected => ⟨BitVec.lt_of_getLsbD selected, selected⟩⟩

private theorem length_positions_le (n : Nat) (w : Word) : (w.positions n).length ≤ n := by
  simpa [positions] using List.length_filter_le w.getLsbD (List.range n)

theorem positions_succ (n : Nat) (w : Word) : w.positions (n + 1) =
    (if w.getLsbD 0 then [0] else []) ++ (positions n (w >>> 1)).map (· + 1) := by
  have shifted : w.getLsbD ∘ Nat.succ = (w >>> 1).getLsbD := by
    funext i
    simp [BitVec.getLsbD_ushiftRight, Nat.add_comm]
  rw [positions, List.range_succ_eq_map, List.filter_cons, List.filter_map, shifted]
  split <;> rfl

theorem length_positions_add_one (n : Nat) (w : Word) :
    (w.positions (n + 1)).length = (w.positions n).length + if w.getLsbD n then 1 else 0 := by
  rw [positions, List.range_succ, List.filter_append, List.length_append, positions]
  cases bit : w.getLsbD n <;> simp [bit]

theorem getLsbD_gather {n : Nat} (fits : n ≤ wordBits) (mask value : Word) (k : Nat) :
    (gather n mask value).getLsbD k = (mask.positions n)[k]?.any value.getLsbD := by
  induction n generalizing mask value k with
  | zero => simp [gather, positions]
  | succ n ih =>
    rw [wordBits] at fits ih
    -- The bits above the lowest one, at their positions in the mask that was not shifted.
    have above (k : Nat) : (gather n (mask >>> 1) (value >>> 1)).getLsbD k =
        ((positions n (mask >>> 1)).map (· + 1))[k]?.any value.getLsbD := by
      rw [ih (by omega), List.getElem?_map]
      cases (positions n (mask >>> 1))[k]? <;> simp [BitVec.getLsbD_ushiftRight, Nat.add_comm]
    rw [gather, positions_succ]
    by_cases selected : mask.getLsbD 0 = true
    · rw [if_pos selected, if_pos selected, List.singleton_append]
      cases k with
      | zero => simp
      | succ k =>
        rw [List.getElem?_cons_succ, ← above]
        -- Shifting up loses no bit: fewer bits were gathered than the word has.
        by_cases inside : k + 1 < 32
        · simp [inside, BitVec.getLsbD_eq_getElem (show k < 32 by omega)]
        · have short := length_positions_le n (mask >>> 1)
          have none_there : ((positions n (mask >>> 1)).map (· + 1))[k]? = none := by
            rw [List.getElem?_eq_none_iff, List.length_map]
            omega
          rw [above, none_there]
          exact BitVec.getLsbD_of_ge _ _ (by omega)
    · rw [if_neg selected, if_neg selected, List.nil_append]
      exact above k

theorem gather_eq_iff {n : Nat} (fits : n ≤ wordBits) {mask a b : Word} :
    gather n mask a = gather n mask b ↔
      ∀ i < n, mask.getLsbD i = true → a.getLsbD i = b.getLsbD i := by
  constructor
  · intro same i inside selected
    obtain ⟨k, position⟩ := List.mem_iff_getElem?.mp (mem_positions.mpr ⟨inside, selected⟩)
    have bit := congrArg (fun w : Word => w.getLsbD k) same
    simpa only [getLsbD_gather fits, position, Option.any_some] using bit
  · intro agree
    apply BitVec.eq_of_getLsbD_eq
    intro k _
    rw [getLsbD_gather fits, getLsbD_gather fits]
    cases position : (mask.positions n)[k]? with
    | none => rfl
    | some i =>
      obtain ⟨inside, selected⟩ := mem_positions.mp (List.mem_of_getElem? position)
      exact agree i inside selected

/-- A word whose bits from `width` up are all clear. -/
theorem toNat_lt_of_getLsbD {w : Word} {width : Nat}
    (clear : ∀ k, width ≤ k → w.getLsbD k = false) :
    w.toNat < 2 ^ width := by
  apply Nat.lt_pow_two_of_testBit
  intro k above
  rw [BitVec.testBit_toNat]
  exact clear k above

private theorem toNat_gather_lt {n : Nat} (fits : n ≤ wordBits) (mask value : Word) :
    (gather n mask value).toNat < 2 ^ (mask.positions n).length := by
  apply toNat_lt_of_getLsbD
  intro k above
  rw [getLsbD_gather fits, List.getElem?_eq_none above]
  rfl

/-! ### Counting set bits -/

private theorem cpopNatRec_eq_length (w : Word) (n : Nat) :
    w.cpopNatRec n 0 = (w.positions n).length := by
  induction n with
  | zero => rfl
  | succ n ih =>
    rw [BitVec.cpopNatRec_succ, BitVec.cpopNatRec_eq, ih, length_positions_add_one]
    cases w.getLsbD n <;> rfl

theorem length_positions (w : Word) : (w.positions wordBits).length = w.ones := by
  rw [ones, BitVec.toNat_cpop, cpopNatRec_eq_length, wordBits]

theorem ones_le (w : Word) : w.ones ≤ 32 := by
  rw [← length_positions]
  exact length_positions_le wordBits w

theorem toNat_gather_lt_ones (mask value : Word) :
    (gather wordBits mask value).toNat < 2 ^ mask.ones := by
  rw [← length_positions]
  exact toNat_gather_lt (Nat.le_refl _) mask value

end RemoteKeys.Word
