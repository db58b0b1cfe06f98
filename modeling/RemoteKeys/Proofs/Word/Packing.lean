import Mathlib.Data.List.Sort
import RemoteKeys.KeyMask
import RemoteKeys.Proofs.Word.Gather

/-!
# Packing in order

A packed code has the selected lines in their order, from bit 0 up. `Word.gather` finds it from the
top down and moves what it has by one line at a time. Packed from the bottom up, on the mask as it
is kept, every selected bit is moved to its place at once; the place is the number of selected lines
below, so that no bit is moved by the width of a word, even where all lines are selected.

## Main result

`KeyMask.pack_in_order`: the bits of a packed code are the selected lines in ascending order, and
packing from the bottom up comes to the same without a move by the width of a word.
-/

namespace RemoteKeys

namespace Word

/-! ### Positions in ascending order -/

private theorem sortedLT_positions (w : Word) (n : Nat) : (w.positions n).SortedLT :=
  (List.pairwise_lt_range.filter _).sortedLT

private theorem eq_positions {w : Word} {lines : List Nat} (ascending : lines.SortedLT)
    (mem : ∀ i, i ∈ lines ↔ w.getLsbD i = true) : lines = w.positions wordBits :=
  ascending.eq_of_mem_iff (w.sortedLT_positions wordBits) fun {i} =>
    (mem i).trans mem_positions_wordBits.symm

theorem positions_eq_map_add {w : Word} {n : Nat} (clear : ∀ i < n, w.getLsbD i = false) :
    w.positions wordBits = (positions wordBits (w >>> n)).map (n + ·) := by
  have ascending : ((positions wordBits (w >>> n)).map (n + ·)).SortedLT := by
    apply List.Pairwise.sortedLT
    exact (sortedLT_positions _ _).pairwise.map _ fun _ _ below => Nat.add_lt_add_left below n
  refine (eq_positions ascending fun i => ?_).symm
  simp only [List.mem_map, mem_positions_wordBits, BitVec.getLsbD_ushiftRight]
  constructor
  · rintro ⟨k, selected, rfl⟩
    exact selected
  · intro selected
    have above : n ≤ i := Nat.le_of_not_lt fun below => by
      rw [clear i below] at selected
      cases selected
    have there : n + (i - n) = i := Nat.add_sub_cancel' above
    exact ⟨i - n, by rwa [there], there⟩

/-- No bit is selected below bit `n`, so that both may be moved down there. -/
theorem gather_eq_gather_ushiftRight {mask : Word} {n : Nat}
    (clear : ∀ i < n, mask.getLsbD i = false) (value : Word) :
    gather wordBits mask value = gather wordBits (mask >>> n) (value >>> n) := by
  apply BitVec.eq_of_getLsbD_eq
  intro k _
  rw [getLsbD_gather (Nat.le_refl _), getLsbD_gather (Nat.le_refl _), positions_eq_map_add clear,
    List.getElem?_map]
  cases (positions wordBits (mask >>> n))[k]? with
  | none => rfl
  | some i => exact (BitVec.getLsbD_ushiftRight ..).symm

/-! ### From the bottom up -/

private theorem gather_zero (n : Nat) (value : Word) : gather n 0 value = 0 := by
  induction n generalizing value with
  | zero => rfl
  | succ n ih => exact ih (value >>> 1)

end Word

namespace KeyMask

private theorem packOnto?_eq {n : Nat} {mask : Word} (small : mask.toNat < 2 ^ n) (code : Code)
    {place : Nat} (room : place + n ≤ wordBits) (value : Word) :
    packOnto? code place mask value = some (code ||| Word.gather n mask value <<< place) := by
  -- Over the lines that are left: there are as many places as lines, so that the next place is in
  -- the word.
  induction n generalizing code place mask value with
  | zero =>
    have zero : mask = 0 := BitVec.eq_of_toNat_eq (by simpa using small)
    -- Nothing is selected any more, and the walk is over.
    rw [packOnto?, if_pos zero, Word.gather]
    simp
  | succ n ih =>
    have shorter : (mask >>> 1).toNat < 2 ^ n := by
      rw [BitVec.toNat_ushiftRight, Nat.shiftRight_one]
      rw [Nat.pow_succ] at small
      omega
    by_cases zero : mask = 0
    · rw [packOnto?, if_pos zero, zero, Word.gather_zero]
      simp
    · rw [packOnto?, if_neg zero, Word.gather]
      by_cases selected : mask.getLsbD 0 = true
      · have moved : (value &&& 1).movedUp? place = some ((value &&& 1) <<< place) :=
          if_pos (by omega)
        have still_room : place + 1 + n ≤ wordBits := by omega
        have others := ih shorter (code ||| (value &&& 1) <<< place) still_room (value >>> 1)
        rw [if_pos selected, if_pos selected, moved, Option.bind_eq_bind, Option.bind_some, others,
          Nat.add_comm place, BitVec.shiftLeft_add, BitVec.shiftLeft_or_distrib, BitVec.or_assoc,
          BitVec.or_comm ((value &&& 1) <<< place)]
      · rw [if_neg selected, if_neg selected]
        exact ih shorter code (by omega) (value >>> 1)

theorem pack_eq_gather_bits (m : KeyMask) (raw : Word) :
    m.pack raw = Word.gather wordBits m.bits (raw >>> m.offset) :=
  Word.gather_eq_gather_ushiftRight (fun _ below => Word.getLsbD_of_lt_lowest below) raw

private theorem packUp?_eq (m : KeyMask) (raw : Word) : m.packUp? raw = some (m.pack raw) := by
  have moved (w : Word) : w.movedDown? m.offset = some (w >>> m.offset) := if_pos m.offset_lt
  have packed := packOnto?_eq (n := wordBits) m.bits.isLt 0 (Nat.le_refl _) (raw >>> m.offset)
  simp only [packUp?, moved, Option.bind_eq_bind, Option.bind_some]
  rw [← bits, packed, ← pack_eq_gather_bits]
  simp

/-! ### Main result -/

/--
The packed code of a reading, for any choice of lines. The selected lines are packed in ascending
order from bit 0 up, and there is nothing above them. It is also what packing from the bottom up
gives, in which no word is moved by its width or more.
-/
theorem pack_in_order {mask : Word} (nonzero : mask ≠ 0) : ∃ m, ofWord? mask = some m ∧ ∀ raw,
    (∀ lines : List Nat, lines.SortedLT → (∀ i, i ∈ lines ↔ mask.getLsbD i = true) →
      lines.length = m.width ∧
      ∀ k (inside : k < lines.length), (m.pack raw).getLsbD k = raw.getLsbD lines[k]) ∧
    (∀ k, m.width ≤ k → (m.pack raw).getLsbD k = false) ∧
    m.packUp? raw = some (m.pack raw) := by
  refine ⟨⟨mask, nonzero⟩, ofWord?_eq_some_iff.mpr rfl, fun raw => ⟨?_, ?_, packUp?_eq _ raw⟩⟩
  · intro lines ascending selected
    obtain rfl := Word.eq_positions ascending selected
    refine ⟨mask.length_positions, fun k inside => ?_⟩
    rw [pack, Word.getLsbD_gather (Nat.le_refl _), List.getElem?_eq_getElem inside, Option.any_some]
  · intro k above
    rw [width, ← Word.length_positions] at above
    rw [pack, Word.getLsbD_gather (Nat.le_refl _), List.getElem?_eq_none above, Option.any_none]

/-- Six lines with gaps between them, and all lines of a word. -/
theorem pack_in_order_lines :
    (∃ m, ofWord? 0xf88000 = some m ∧ m.width = 6 ∧ (m.pack 0x200000).getLsbD 3 = true ∧
      (m.pack 0xffffffff).getLsbD 6 = false) ∧
    ∃ m, ofWord? 0xffffffff = some m ∧ m.width = 32 ∧ (m.pack 0x80000000).getLsbD 31 = true ∧
      m.packUp? 0x80000000 = some (m.pack 0x80000000) := by
  constructor
  · obtain ⟨m, made, packed⟩ := pack_in_order (show (0xf88000 : Word) ≠ 0 by decide)
    have lines : [15, 19, 20, 21, 22, 23] = (0xf88000 : Word).positions wordBits := by decide
    obtain ⟨length, bits⟩ :=
      (packed 0x200000).1 _ (by decide) fun i => lines ▸ Word.mem_positions_wordBits
    have nothing_above := (packed 0xffffffff).2.1 6 (Nat.le_of_eq length.symm)
    exact ⟨m, made, length.symm, (bits 3 (by decide)).trans (by decide), nothing_above⟩
  · obtain ⟨m, made, packed⟩ := pack_in_order (show (0xffffffff : Word) ≠ 0 by decide)
    have lines : List.range 32 = (0xffffffff : Word).positions wordBits := by decide
    obtain ⟨order, -, upwards⟩ := packed 0x80000000
    obtain ⟨length, bits⟩ :=
      order _ (List.sortedLT_range 32) fun i => lines ▸ Word.mem_positions_wordBits
    exact ⟨m, made, length.symm, (bits 31 (by decide)).trans (by decide), upwards⟩

end KeyMask

end RemoteKeys
