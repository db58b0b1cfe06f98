import RemoteKeys.Proofs.Decode.Separation
import RemoteKeys.Proofs.Playback.Pace

/-!
# Inverted lines

A polled card may have lines that are read inverted. They are turned round behind the lock gate and
in front of the packing; as packing moves every line to a place of its own, this comes to inverting
the bits of the code that stand for these lines.

## Main result

`Config.inverted_lines`: an inversion mask flips the bits of the code that it packs to, locks no
reading and unlocks none, and does nothing by lines that are no key lines.
-/

namespace RemoteKeys

/-! ### Packing differences -/

private theorem Word.gather_xor {n : Nat} (fits : n ≤ wordBits) (mask a b : Word) :
    gather n mask (a ^^^ b) = gather n mask a ^^^ gather n mask b := by
  apply BitVec.eq_of_getLsbD_eq
  intro k _
  rw [BitVec.getLsbD_xor, getLsbD_gather fits, getLsbD_gather fits, getLsbD_gather fits]
  -- Each bit of the code is one bit of the word, or clear for every word.
  cases (mask.positions n)[k]? with
  | none => rfl
  | some i => exact BitVec.getLsbD_xor

namespace KeyMask

private theorem pack_xor (m : KeyMask) (a b : Word) : m.pack (a ^^^ b) = m.pack a ^^^ m.pack b :=
  Word.gather_xor (Nat.le_refl _) m.word a b

theorem xor_pack_zero (m : KeyMask) (code : Code) : code ^^^ m.pack 0 = code := by
  have nothing : m.pack 0 = 0 := (m.pack_xor 0 0).trans BitVec.xor_self
  rw [nothing]
  exact BitVec.xor_zero

theorem eq_of_word_eq {m n : KeyMask} (same : m.word = n.word) : m = n := by
  cases m
  cases n
  cases same
  rfl

end KeyMask

/-! ### Setups that differ in their inverted lines -/

/-- The setups differ in nothing but the lines that are read inverted. -/
structure Setup.SameButInverted (s other : Setup) : Prop where
  mask : other.mask = s.mask
  lockMask : other.lockMask = s.lockMask
  trigger : other.trigger = s.trigger
  holdoff : other.holdoff = s.holdoff

namespace Setup

variable {s other : Setup} {raw : Word}

theorem decode_eq_pack_xor (polled : s.trigger = .polled) (free : ¬ raw.Meets s.lockMask) :
    s.decode raw = some (s.mask.pack raw ^^^ s.mask.pack s.invertMask) := by
  rw [decode_of_polled polled free, KeyMask.pack_xor]

namespace SameButInverted

private theorem decode_eq (same : s.SameButInverted other) (polled : s.trigger = .polled)
    (keys : other.invertMask &&& s.mask.word = s.invertMask &&& s.mask.word) :
    other.decode = s.decode := by
  funext raw
  by_cases locked : raw.Meets s.lockMask
  · rw [decode_of_meets locked, decode_of_meets (same.lockMask ▸ locked)]
  · rw [decode_eq_pack_xor polled locked,
      decode_eq_pack_xor (same.trigger.trans polled) (same.lockMask ▸ locked),
      same.mask, KeyMask.pack_eq_iff.mpr keys]

private theorem play_eq (same : s.SameButInverted other) (decoded : other.decode = s.decode)
    (t : Trace) :
    t.play other = t.play s := by
  -- A receiver takes nothing from its setup but what it holds off and how it decodes.
  have observed : other.observe = s.observe := by
    funext h reading now
    cases reading with
    | none => rfl
    | some raw => simp only [observe, decoded]
  rw [Trace.play_eq_playFrom, Trace.play_eq_playFrom, same.holdoff]
  generalize s.holdoff = h
  induction t generalizing h with
  | nil => rfl
  | cons x rest ih => rw [playFrom, playFrom, observed, ih]

end SameButInverted

end Setup

namespace Config

variable {c : Config} {s : Setup}

private theorem exists_setup_inverted (admitted : c.setup = .ok s) (polled : c.trigger = .polled)
    (flip : Word) :
    ∃ other, { c with invertMask := flip }.setup = .ok other ∧ s.SameButInverted other ∧
      other.invertMask = flip := by
  -- No constraint is about inverted lines.
  have satisfied := exists_setup_iff.mp ⟨s, admitted⟩
  obtain ⟨other, also_admitted⟩ :=
    (exists_setup_iff (c := { c with invertMask := flip })).mpr satisfied
  obtain ⟨⟨-, mask, lockMask, trigger⟩, sampled, -⟩ := normalisedAs_of_setup admitted
  obtain ⟨⟨-, other_mask, other_lockMask, other_trigger⟩, other_sampled, -⟩ :=
    normalisedAs_of_setup also_admitted
  obtain ⟨-, -, -, gap⟩ := sampled polled
  obtain ⟨inverted, -, -, other_gap⟩ := other_sampled polled
  have same_trigger : other.trigger = s.trigger := other_trigger.trans trigger.symm
  have same_gap : other.gapMs = s.gapMs := other_gap.trans gap.symm
  refine ⟨other, also_admitted, ⟨?_, other_lockMask.trans lockMask.symm, same_trigger, ?_⟩,
    inverted⟩
  · exact KeyMask.eq_of_word_eq (other_mask.trans mask.symm)
  · rw [Setup.holdoff, Setup.holdoff, Setup.holdoffScope, Setup.holdoffScope, Setup.gap, Setup.gap,
      same_trigger, same_gap]

/-! ### Main result -/

/--
Packing turns the difference of two readings into the difference of their codes. So the inversion
mask of a polled card flips the bits of each code that it packs to, against the same card without
one. With any other mask the card is admitted too and locks the same readings; where the masks agree
on the key lines, it spells the same codes, and plays every trace back alike.
-/
theorem inverted_lines (admitted : c.setup = .ok s) (polled : c.trigger = .polled) :
    (∀ (m : KeyMask) (a b : Word), m.pack (a ^^^ b) = m.pack a ^^^ m.pack b) ∧
    (∃ plain, { c with invertMask := 0 }.setup = .ok plain ∧ ∀ raw, ¬ raw.Meets c.lockMask →
      ∃ code, plain.decode raw = some code ∧ s.decode raw =
        some (code ^^^ s.mask.pack c.invertMask)) ∧
    ∀ flip, ∃ other, { c with invertMask := flip }.setup = .ok other ∧
      (∀ raw, other.decode raw = none ↔ raw.Meets c.lockMask) ∧
      (flip &&& c.mask = c.invertMask &&& c.mask →
        (∀ raw, other.decode raw = s.decode raw) ∧ ∀ t : Trace, t.play other = t.play s) := by
  obtain ⟨⟨-, mask, lockMask, trigger⟩, sampled, -⟩ := normalisedAs_of_setup admitted
  obtain ⟨inverted, -⟩ := sampled polled
  have is_polled : s.trigger = .polled := trigger.trans polled
  refine ⟨KeyMask.pack_xor, ?_, fun flip => ?_⟩
  · obtain ⟨plain, plain_admitted, same, upright⟩ := exists_setup_inverted admitted polled 0
    refine ⟨plain, plain_admitted, fun raw free => ?_⟩
    rw [← lockMask] at free
    have decoded := Setup.decode_eq_pack_xor (same.trigger.trans is_polled) (same.lockMask ▸ free)
    rw [same.mask, upright, KeyMask.xor_pack_zero] at decoded
    exact ⟨_, decoded, inverted ▸ Setup.decode_eq_pack_xor is_polled free⟩
  · obtain ⟨other, other_admitted, same, flipped⟩ := exists_setup_inverted admitted polled flip
    refine ⟨other, other_admitted, fun raw => ?_, fun keys => ?_⟩
    · rw [← lockMask, ← same.lockMask]
      exact Setup.decode_eq_none_iff
    · have decoded : other.decode = s.decode :=
        same.decode_eq is_polled (by rw [flipped, inverted, mask, keys])
      exact ⟨congrFun decoded, same.play_eq decoded⟩

/-- Two inverted key lines and the inverted lock line, and a mask that differs from theirs in other
lines only. -/
theorem inverted_lines_bt848 :
    let c : Config := { bt848Config with invertMask := 0x9100 }
    let s : Setup := { bt848 with drive := .polled 12 500 0x9100 (by decide) (by decide) }
    c.setup = .ok s ∧ bt848.decode 0x1500 = some 0x15 ∧ s.decode 0x1500 = some (0x15 ^^^ 0x11) ∧
      ∃ other, { c with invertMask := 0x110f }.setup = .ok other ∧
        other.decode 0x9500 = none ∧ other.decode 0x1500 = s.decode 0x1500 := by
  intro c s
  have admitted : c.setup = .ok s := by decide +kernel
  obtain ⟨-, ⟨plain, plain_admitted, flips⟩, others⟩ := inverted_lines admitted rfl
  have is_bt848 : plain = bt848 := by
    have upright : { c with invertMask := 0 }.setup = .ok bt848 := by decide +kernel
    exact Except.ok.inj (plain_admitted.symm.trans upright)
  obtain ⟨other, other_admitted, locks, agrees⟩ := others 0x110f
  obtain ⟨code, spelled, flipped⟩ := flips 0x1500 (by decide)
  have code_eq : code = 0x15 := by
    rw [is_bt848] at spelled
    exact Option.some.inj (spelled.symm.trans (by decide +kernel))
  have packed : s.mask.pack c.invertMask = 0x11 := by decide +kernel
  rw [code_eq, packed] at flipped
  rw [is_bt848, code_eq] at spelled
  exact ⟨admitted, spelled, flipped, other, other_admitted, (locks _).mpr (by decide),
    (agrees (by decide)).1 0x1500⟩

end Config

end RemoteKeys
