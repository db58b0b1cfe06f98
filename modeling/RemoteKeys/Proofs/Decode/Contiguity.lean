import RemoteKeys.Proofs.Decode.Inversion
import RemoteKeys.Proofs.Decode.Range
import RemoteKeys.Proofs.Word.Contiguity
import RemoteKeys.Proofs.Word.Packing

/-!
# Key lines side by side

Closing the gaps between the key lines makes a difference only where there are gaps. A selected line
is moved down by packing to its rank, and by the window to its distance from the lowest one.

## Main result

`extractions_agree`: packing and the window agree on every reading exactly where the key lines are
side by side, which the widths of the two tell as well; elsewhere a packed code is the smaller one.
Cards of either trigger decode alike then.

## Proof strategy

A reading that shows one line alone tells the rank of this line and its distance
(`KeyMask.pack_eq_window_iff`). Where these are the same is a question about the mask alone
(`Word.contiguous_iff_rank`).
-/

namespace RemoteKeys

/-! ### Packed codes and windows -/

namespace KeyMask

variable {m : KeyMask}

private theorem window_eq_and_shift (m : KeyMask) (raw : Word) :
    m.window raw = (raw &&& m.word) >>> m.offset := by
  rw [window, bits, BitVec.ushiftRight_and_distrib]

private theorem toNat_pack_le_window (m : KeyMask) (raw : Word) :
    (m.pack raw).toNat ≤ (m.window raw).toNat := by
  rw [pack_eq_gather_bits]
  exact Word.toNat_gather_le wordBits m.bits (raw >>> m.offset)

private theorem pack_eq_window_iff :
    (∀ raw, m.pack raw = m.window raw) ↔
      ∀ i, m.word.getLsbD i = true → m.word.rank i + m.word.lowest = i := by
  constructor
  · intro same i selected
    -- A reading that shows line `i` alone, which the packed code has at its rank.
    have inside : i < 32 := BitVec.lt_of_getLsbD selected
    have shown : (m.window (BitVec.twoPow 32 i)).getLsbD (m.word.rank i) = true := by
      rw [← same, getLsbD_pack selected, BitVec.getLsbD_twoPow]
      simp [inside]
    rw [getLsbD_window, BitVec.getLsbD_twoPow, Bool.and_eq_true, Bool.and_eq_true] at shown
    have line : i = m.offset + m.word.rank i := of_decide_eq_true shown.1.2
    rw [Nat.add_comm]
    exact line.symm
  · intro ranks raw
    -- Bit `k` of the one code is the selected line of rank `k`, of the other the line `k` above the
    -- lowest one.
    apply BitVec.eq_of_getLsbD_eq
    intro k _
    rw [pack, Word.getLsbD_gather (Nat.le_refl _), getLsbD_window]
    cases position : (m.word.positions wordBits)[k]? with
    | none =>
      have outside : m.word.getLsbD (m.offset + k) = false := by
        rw [Bool.eq_false_iff]
        intro selected
        have there :=
          Word.getElem?_positions_rank (n := wordBits) (BitVec.lt_of_getLsbD selected) selected
        have rank : m.word.rank (m.offset + k) = k := by
          have distance := ranks _ selected
          rw [Nat.add_comm, offset] at distance
          exact Nat.add_left_cancel distance
        rw [rank, position] at there
        cases there
      rw [outside, Bool.and_false, Option.any_none]
    | some i =>
      have selected := Word.mem_positions_wordBits.mp (List.mem_of_getElem? position)
      have distance := ranks i selected
      rw [Word.rank_of_getElem?_positions position, Nat.add_comm] at distance
      rw [offset, distance, selected, Option.any_some, Bool.and_true]

end KeyMask

namespace Setup

variable {sampled notified : Setup}

private theorem decode_eq_of_pack_eq_window (polled : sampled.trigger = .polled)
    (interrupt : notified.trigger = .interrupt) (upright : sampled.invertMask = 0)
    (mask : sampled.mask = notified.mask) (lockMask : sampled.lockMask = notified.lockMask)
    (same : ∀ raw, notified.mask.pack raw = notified.mask.window raw) (raw : Word) :
    sampled.decode raw = notified.decode raw := by
  by_cases locked : raw.Meets notified.lockMask
  · rw [decode_of_meets locked, decode_of_meets (lockMask ▸ locked)]
  · rw [decode_eq_pack_xor polled (lockMask ▸ locked),
      decode_of_interrupt interrupt locked, upright, KeyMask.xor_pack_zero, mask, same]

end Setup

/-! ### Main result -/

/--
The two ways of reading a code off a word, for any choice of lines. They agree on all words exactly
where the lines are side by side, and so does the number of the lines with the reach from the lowest
to the highest one. The window is what the lines show, shifted down to the lowest one; a packed code
is never greater. So a polled card without inverted lines and an interrupt driven card decode alike,
if they have the same lock lines and the same key lines side by side.
-/
theorem extractions_agree {mask : Word} (nonzero : mask ≠ 0) : ∃ m, KeyMask.ofWord? mask = some m ∧
    ((∀ raw, m.pack raw = m.window raw) ↔ mask.Contiguous) ∧
    (mask.Contiguous ↔ m.bits.binaryLength = m.width) ∧
    (∀ raw, m.window raw = (raw &&& mask) >>> m.offset ∧
      (m.pack raw).toNat ≤ (m.window raw).toNat) ∧
    (mask.Contiguous → ∀ (polled interrupt : Config) (sampled notified : Setup),
      polled.trigger = .polled → interrupt.trigger = .interrupt → polled.invertMask = 0 →
      polled.mask = mask → interrupt.mask = mask → polled.lockMask = interrupt.lockMask →
      polled.setup = .ok sampled → interrupt.setup = .ok notified →
        ∀ raw, sampled.decode raw = notified.decode raw) := by
  obtain ⟨m, made⟩ : ∃ m, KeyMask.ofWord? mask = some m :=
    ⟨⟨mask, nonzero⟩, KeyMask.ofWord?_eq_some_iff.mpr rfl⟩
  obtain rfl := KeyMask.ofWord?_eq_some_iff.mp made
  have agree : (∀ raw, m.pack raw = m.window raw) ↔ m.word.Contiguous :=
    KeyMask.pack_eq_window_iff.trans Word.contiguous_iff_rank.symm
  refine ⟨m, made, agree, ?_, fun raw => ⟨m.window_eq_and_shift raw, m.toNat_pack_le_window raw⟩,
    ?_⟩
  · rw [Word.contiguous_iff_extent nonzero, ← m.reach_eq_extent]
    exact Iff.rfl
  · intro contiguous polled interrupt sampled notified is_polled is_interrupt upright mask
      also_mask lockMask
      admitted also_admitted
    have normalised := Config.normalisedAs_of_setup admitted
    have also_normalised := Config.normalisedAs_of_setup also_admitted
    obtain ⟨-, word, lock, trigger⟩ := normalised.card
    obtain ⟨-, also_word, also_lock, also_trigger⟩ := also_normalised.card
    have is_m : notified.mask = m := KeyMask.eq_of_word_eq (also_word.trans also_mask)
    have same_mask : sampled.mask = notified.mask :=
      KeyMask.eq_of_word_eq ((word.trans mask).trans (also_word.trans also_mask).symm)
    refine Setup.decode_eq_of_pack_eq_window (trigger.trans is_polled)
      (also_trigger.trans is_interrupt) ?_ same_mask
      (lock.trans (lockMask.trans also_lock.symm)) (is_m ▸ agree.mpr contiguous)
    exact (normalised.polled is_polled).1.trans upright

/-- Five lines side by side, for a card of either trigger, and six lines with gaps between them. -/
theorem extractions_agree_lines :
    let c : Config := { cx88Config with mask := 0x1f00, lockMask := 0x8000 }
    let notified : Setup := { cx88 with
      mask := bt848.mask, lockMask := 0x8000,
      drive := .interrupt 400 9 (by decide) (by decide) (by decide +kernel) }
    (bt848Config.setup = .ok bt848 ∧ c.setup = .ok notified ∧
      bt848.decode 0x1500 = notified.decode 0x1500) ∧
      ∃ m, KeyMask.ofWord? 0xf88000 = some m ∧ ¬ ∀ raw, m.pack raw = m.window raw := by
  intro c notified
  constructor
  · obtain ⟨m, made, -, widths, -, alike⟩ := extractions_agree bt848.mask.ne_zero
    obtain rfl := Option.some.inj (made.symm.trans (show _ = some bt848.mask from rfl))
    have admitted : bt848Config.setup = .ok bt848 := by decide +kernel
    have also_admitted : c.setup = .ok notified := by decide +kernel
    have contiguous : bt848.mask.word.Contiguous := widths.mpr (by decide +kernel)
    have decoded :=
      alike contiguous bt848Config c bt848 notified rfl rfl rfl rfl rfl rfl admitted also_admitted
    exact ⟨admitted, also_admitted, decoded 0x1500⟩
  · obtain ⟨m, made, agree, widths, -⟩ := extractions_agree cx88.mask.ne_zero
    obtain rfl := Option.some.inj (made.symm.trans (show _ = some cx88.mask from rfl))
    have apart : cx88.mask.bits.binaryLength ≠ cx88.mask.width := by decide +kernel
    exact ⟨_, made, fun all => apart (widths.mp (agree.mp all))⟩

end RemoteKeys
