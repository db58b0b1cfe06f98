import RemoteKeys.Proofs.Decode.Separation
import RemoteKeys.Proofs.Word.Extent

/-!
# The width of codes

The width of a card comes about in two ways. A polled card's is the number of its selected lines,
and a packed code has one bit for each of them. An interrupt driven card's is given by the user, and
is admitted where it covers the window over the selected lines. In both cases no reading spells a
code beyond it.

## Main statements

- `Setup.toNat_lt_of_decode`: a code fits the width of its card.
- `Config.width_of_setup`: where an admitted card has its width from.
-/

namespace RemoteKeys

namespace KeyMask

theorem toNat_pack_lt (m : KeyMask) (raw : Word) : (m.pack raw).toNat < 2 ^ m.width :=
  Word.toNat_gather_lt_ones m.word raw

private theorem toNat_window_lt (m : KeyMask) (raw : Word) :
    (m.window raw).toNat < 2 ^ m.reach := by
  have inside : (m.window raw).toNat ≤ m.bits.toNat := by
    rw [window, BitVec.toNat_and]
    exact Nat.and_le_right
  exact Nat.lt_of_le_of_lt inside m.bits.toNat_lt_binaryLength

end KeyMask

theorem Setup.toNat_lt_of_decode {s : Setup} {raw : Word} {code : Code}
    (decoded : s.decode raw = some code) :
    code.toNat < 2 ^ s.width := by
  unfold decode trigger at decoded
  unfold width
  split at decoded
  · cases decoded
  · cases drive : s.drive with
    | polled =>
      simp only [drive, Option.some.injEq] at decoded
      exact decoded ▸ s.mask.toNat_pack_lt _
    | interrupt gapMs width gap_admitted width_admitted reach_le =>
      simp only [drive, Option.some.injEq] at decoded
      have within := s.mask.toNat_window_lt raw
      rw [decoded] at within
      exact Nat.lt_of_lt_of_le within (Nat.pow_le_pow_right (by decide) reach_le)

/-- The width of an admitted card is counted for a polled one, and given for an interrupt driven
one. -/
theorem Config.width_of_setup {c : Config} {s : Setup} (admitted : c.setup = .ok s) :
    s.width = match c.trigger with
      | .polled => c.mask.ones
      | .interrupt => c.width := by
  have normalised := Config.normalisedAs_of_setup admitted
  cases trigger : c.trigger with
  | polled =>
    obtain ⟨-, -, width, -⟩ := normalised.polled trigger
    rw [width, Word.length_positions]
  | interrupt =>
    obtain ⟨-, -, width, -⟩ := normalised.interrupt trigger
    exact width

end RemoteKeys
