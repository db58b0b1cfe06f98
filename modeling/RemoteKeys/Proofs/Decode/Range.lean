import RemoteKeys.Proofs.Decode.Width
import RemoteKeys.Proofs.Word.Scatter

/-!
# The codes that a card can report

Which codes a card has depends on its masks alone. A reading is only decoded with all lock lines
clear, so that a line which is both a key line and a lock line always shows the same; the other key
lines show whatever they like. A packed code has each key line's bit at the rank of the line, and
the constant ones show what the inversion mask makes of a clear line.

## Main result

`Config.spells_iff`: the codes of an admitted card, for either trigger, and their number for a
polled one.

## Proof strategy

Every code is spelled by a reading that shows nothing but free key lines (`Setup.spells_iff_free`).
For a polled card such a reading is found by scattering the code over the key lines.
-/

namespace RemoteKeys

/-- Some reading spells the code. -/
def Setup.Spells (s : Setup) (code : Code) : Prop := ∃ raw, s.decode raw = some code

/-- The key lines that are no lock lines. -/
def Setup.freeLines (s : Setup) : Word := s.mask.word &&& ~~~s.lockMask

namespace Word

private theorem meets_iff {a b : Word} :
    a.Meets b ↔ ∃ i, a.getLsbD i = true ∧ b.getLsbD i = true := by
  constructor
  · intro common
    by_contra apart
    apply common
    apply BitVec.eq_of_getLsbD_eq
    intro i _
    have not_both := not_exists.mp apart i
    rw [BitVec.getLsbD_and]
    cases here : a.getLsbD i <;> simp_all
  · rintro ⟨i, here, there⟩ zero
    have bit := congrArg (fun w : Word => w.getLsbD i) zero
    simp [here, there] at bit

private theorem and_eq_self_iff {a b : Word} :
    a &&& b = a ↔ ∀ i, a.getLsbD i = true → b.getLsbD i = true := by
  constructor
  · intro within i here
    have bit := congrArg (fun w : Word => w.getLsbD i) within
    simpa [here] using bit
  · intro within
    apply BitVec.eq_of_getLsbD_eq
    intro i _
    cases here : a.getLsbD i with
    | false => simp [here]
    | true => simp [here, within i here]

/-- A word that shows free lines only shows key lines only, and none of the lock lines. -/
theorem and_and_not_eq_self_iff {a mask lock : Word} :
    a &&& (mask &&& ~~~lock) = a ↔ a &&& mask = a ∧ ¬ a.Meets lock := by
  rw [and_eq_self_iff, and_eq_self_iff, meets_iff, not_exists]
  constructor
  · intro free
    refine ⟨fun i here => ?_, fun i both => ?_⟩
    · have bit := free i here
      simp only [BitVec.getLsbD_and, Bool.and_eq_true] at bit
      exact bit.1
    · have bit := free i both.1
      simp [both.2] at bit
  · rintro ⟨keys, unlocked⟩ i here
    have inside : i < 32 := BitVec.lt_of_getLsbD here
    have clear : lock.getLsbD i = false :=
      Bool.eq_false_iff.mpr fun there => unlocked i ⟨here, there⟩
    rw [BitVec.getLsbD_and, BitVec.getLsbD_not, keys i here, clear]
    simp [inside]

end Word

namespace KeyMask

theorem getLsbD_pack {m : KeyMask} {i : Nat} (selected : m.word.getLsbD i = true) (raw : Word) :
    (m.pack raw).getLsbD (m.word.rank i) = raw.getLsbD i := by
  have position :=
    Word.getElem?_positions_rank (n := wordBits) (BitVec.lt_of_getLsbD selected) selected
  rw [pack, Word.getLsbD_gather (Nat.le_refl _), position, Option.any_some]

private theorem pack_scatter {m : KeyMask} {code : Code} (fits : code.toNat < 2 ^ m.width) :
    m.pack (Word.scatter wordBits m.word code) = code := Word.gather_scatter fits

private theorem window_of_and_eq_self {m : KeyMask} {raw : Word} (keys : raw &&& m.word = raw) :
    m.window raw = raw >>> m.offset := by
  rw [window, bits, ← BitVec.ushiftRight_and_distrib, keys]

end KeyMask

namespace Setup

variable {s : Setup}

private theorem spells_iff_free {code : Code} :
    s.Spells code ↔ ∃ m, m &&& s.freeLines = m ∧ s.decode m = some code := by
  constructor
  · rintro ⟨raw, decoded⟩
    have unlocked : ¬ raw.Meets s.lockMask := by
      rw [← decode_eq_none_iff, decoded]
      nofun
    -- The other lines of the reading make no difference.
    have keys : raw &&& s.mask.word &&& s.mask.word = raw &&& s.mask.word := by
      rw [BitVec.and_assoc, BitVec.and_self]
    have still_unlocked : ¬ (raw &&& s.mask.word).Meets s.lockMask := by
      rw [Word.meets_iff] at unlocked ⊢
      rintro ⟨i, here, there⟩
      rw [BitVec.getLsbD_and, Bool.and_eq_true] at here
      exact unlocked ⟨i, here.1, there⟩
    refine ⟨raw &&& s.mask.word, Word.and_and_not_eq_self_iff.mpr ⟨keys, still_unlocked⟩, ?_⟩
    rw [← decoded]
    exact (decode_eq_iff_of_not_meets still_unlocked unlocked).mpr keys
  · rintro ⟨m, -, decoded⟩
    exact ⟨m, decoded⟩

private theorem decode_of_free {m : Word} (free : m &&& s.freeLines = m) : s.decode m =
    match s.trigger with
    | .polled => some (s.mask.pack (m ^^^ s.invertMask))
    | .interrupt => some (m >>> s.mask.offset) := by
  obtain ⟨keys, unlocked⟩ := Word.and_and_not_eq_self_iff.mp free
  cases trigger : s.trigger with
  | polled => exact decode_of_polled trigger unlocked
  | interrupt => rw [decode_of_interrupt trigger unlocked, KeyMask.window_of_and_eq_self keys]

/-! ### Polled cards -/

/-- The bits of the code that stand for lock lines show what these lines always show. -/
def KeepsLockLines (s : Setup) (code : Code) : Prop :=
  ∀ i, s.mask.word.getLsbD i = true → s.lockMask.getLsbD i = true →
    code.getLsbD (s.mask.word.rank i) = s.invertMask.getLsbD i

private theorem spells_iff_of_polled (polled : s.trigger = .polled) {code : Code} :
    s.Spells code ↔ ∃ m, m &&& s.freeLines = m ∧ s.mask.pack (m ^^^ s.invertMask) = code := by
  rw [spells_iff_free]
  refine exists_congr fun m => and_congr_right fun free => ?_
  rw [decode_of_free free, polled, Option.some.injEq]

private theorem spells_iff_keepsLockLines (polled : s.trigger = .polled) {code : Code} :
    s.Spells code ↔ code.toNat < 2 ^ s.mask.width ∧ s.KeepsLockLines code := by
  rw [spells_iff_of_polled polled]
  constructor
  · rintro ⟨m, free, rfl⟩
    obtain ⟨-, unlocked⟩ := Word.and_and_not_eq_self_iff.mp free
    refine ⟨s.mask.toNat_pack_lt _, fun i selected lock => ?_⟩
    have clear : m.getLsbD i = false := by
      rw [Bool.eq_false_iff]
      exact fun here => unlocked (Word.meets_iff.mpr ⟨i, here, lock⟩)
    rw [KeyMask.getLsbD_pack selected, BitVec.getLsbD_xor, clear, Bool.false_xor]
  · rintro ⟨fits, keeps⟩
    refine ⟨(Word.scatter wordBits s.mask.word code ^^^ s.invertMask) &&& s.mask.word, ?_, ?_⟩
    · rw [freeLines, Word.and_and_not_eq_self_iff, BitVec.and_assoc, BitVec.and_self,
        Word.meets_iff]
      refine ⟨rfl, ?_⟩
      rintro ⟨i, here, lock⟩
      rw [BitVec.getLsbD_and, BitVec.getLsbD_xor, Word.getLsbD_scatter (Nat.le_refl _),
        Bool.and_eq_true] at here
      obtain ⟨shown, selected⟩ := here
      rw [selected, keeps i selected lock] at shown
      simp [wordBits, BitVec.lt_of_getLsbD selected] at shown
    · refine (KeyMask.pack_eq_iff.mpr (Word.and_eq_and_iff.mpr fun i selected => ?_)).trans
        (KeyMask.pack_scatter fits)
      simp [selected]

private theorem forall_spells_iff (polled : s.trigger = .polled) :
    (∀ code : Code, code.toNat < 2 ^ s.mask.width → s.Spells code) ↔
      ¬ s.mask.word.Meets s.lockMask := by
  simp only [spells_iff_keepsLockLines polled]
  constructor
  · intro all overlap
    obtain ⟨i, selected, lock⟩ := Word.meets_iff.mp overlap
    -- The code that shows the opposite of the inversion mask on every line.
    have opposite :=
      (all (s.mask.pack (~~~s.invertMask)) (s.mask.toNat_pack_lt _)).2 i selected lock
    rw [KeyMask.getLsbD_pack selected, BitVec.getLsbD_not] at opposite
    simp [BitVec.lt_of_getLsbD selected] at opposite
  · intro apart code fits
    exact ⟨fits, fun i selected lock => absurd (Word.meets_iff.mpr ⟨i, selected, lock⟩) apart⟩

private theorem ncard_spells (polled : s.trigger = .polled) :
    {code | s.Spells code}.ncard = 2 ^ s.freeLines.ones := by
  have spelled : {code | s.Spells code} =
      (fun m => s.mask.pack (m ^^^ s.invertMask)) '' {m | m &&& s.freeLines = m} := by
    ext code
    exact spells_iff_of_polled polled
  rw [spelled, Set.InjOn.ncard_image, Word.ncard_selected]
  intro a free_a b free_b same
  -- Both show key lines only, and the code tells these apart.
  obtain ⟨keys_a, -⟩ := Word.and_and_not_eq_self_iff.mp free_a
  obtain ⟨keys_b, -⟩ := Word.and_and_not_eq_self_iff.mp free_b
  rw [← keys_a, ← keys_b]
  exact Word.xor_and_eq_iff.mp (KeyMask.pack_eq_iff.mp same)

/-! ### Interrupt driven cards -/

private theorem spells_iff_of_interrupt (interrupt : s.trigger = .interrupt) {code : Code} :
    s.Spells code ↔ ∃ m, m &&& s.freeLines = m ∧ m >>> s.mask.offset = code := by
  rw [spells_iff_free]
  refine exists_congr fun m => and_congr_right fun free => ?_
  rw [decode_of_free free, interrupt, Option.some.injEq]

end Setup

/-! ### Main result -/

/--
The codes that some reading of an admitted card spells. A polled card has those of its width that
show, for each key line which is a lock line as well, what the inversion mask says of this line; so
it has every code of its width where no line is both, and one code for each choice of key lines that
are no lock lines. An interrupt driven card has such choices as its codes, shifted down to its
lowest key line.
-/
theorem Config.spells_iff {c : Config} {s : Setup} (admitted : c.setup = .ok s) :
    (c.trigger = .polled →
      (∀ code, s.Spells code ↔ code.toNat < 2 ^ s.width ∧
        ∀ i, c.mask.getLsbD i = true → c.lockMask.getLsbD i = true →
          code.getLsbD (c.mask.rank i) = c.invertMask.getLsbD i) ∧
      ((∀ code : Code, code.toNat < 2 ^ s.width → s.Spells code) ↔ c.mask &&& c.lockMask = 0) ∧
      {code | s.Spells code}.ncard = 2 ^ (c.mask &&& ~~~c.lockMask).ones) ∧
    (c.trigger = .interrupt → ∀ code, s.Spells code ↔
      ∃ m, m &&& (c.mask &&& ~~~c.lockMask) = m ∧ code = m >>> c.mask.lowest) := by
  obtain ⟨⟨-, mask, lockMask, trigger⟩, polled_as, -⟩ := Config.normalisedAs_of_setup admitted
  have free : s.freeLines = c.mask &&& ~~~c.lockMask := by rw [Setup.freeLines, mask, lockMask]
  constructor
  · intro polled
    obtain ⟨invertMask, -, counted, -⟩ := polled_as polled
    have sampled := trigger.trans polled
    have width : s.width = s.mask.width := by
      rw [counted, Word.length_positions, KeyMask.width, mask]
    rw [width, ← free]
    refine ⟨fun code => ?_, ?_, Setup.ncard_spells sampled⟩
    · rw [Setup.spells_iff_keepsLockLines sampled, Setup.KeepsLockLines, mask, lockMask, invertMask]
    · rw [Setup.forall_spells_iff sampled, mask, lockMask, Word.Meets, not_not]
  · intro interrupt code
    have offset : s.mask.offset = c.mask.lowest := by rw [KeyMask.offset, mask]
    rw [Setup.spells_iff_of_interrupt (trigger.trans interrupt), free, offset]
    exact exists_congr fun m => and_congr_right fun _ => eq_comm

/-- A polled card whose top key line is a lock line and is read inverted, so that it has the codes
with the top bit only; and an interrupt driven card, whose window has gaps. -/
theorem spells_iff_cards :
    let c : Config := { bt848Config with lockMask := 0x9000, invertMask := 0x1000 }
    let s : Setup := { bt848 with
      lockMask := 0x9000, drive := .polled 12 500 0x1000 (by decide) (by decide) }
    (c.setup = .ok s ∧ s.Spells 19 ∧ ¬ s.Spells 3 ∧ {code | s.Spells code}.ncard = 16) ∧
      cx88Config.setup = .ok cx88 ∧ cx88.Spells 0x1f1 ∧ ¬ cx88.Spells 2 := by
  intro c s
  constructor
  · have admitted : c.setup = .ok s := by decide +kernel
    obtain ⟨spells, -, number⟩ := (Config.spells_iff admitted).1 rfl
    have lock_lines : ∀ i < 32, c.mask.getLsbD i = true → c.lockMask.getLsbD i = true →
        (19 : Code).getLsbD (c.mask.rank i) = c.invertMask.getLsbD i := by decide +kernel
    refine ⟨admitted, (spells 19).mpr ⟨by decide, ?_⟩, fun spelled => ?_, ?_⟩
    · exact fun i selected => lock_lines i (BitVec.lt_of_getLsbD selected) selected
    · have top := ((spells 3).mp spelled).2 12 (by decide) (by decide)
      exact absurd top (by decide +kernel)
    · rw [number]
      decide +kernel
  · have admitted : cx88Config.setup = .ok cx88 := by decide +kernel
    have spells := (Config.spells_iff admitted).2 rfl
    refine ⟨admitted, (spells _).mpr ⟨0xf88000, by decide, by decide +kernel⟩, fun spelled => ?_⟩
    obtain ⟨m, free, code⟩ := (spells 2).mp spelled
    -- Bit 1 of the code would be line 16, which is no key line.
    have line : m.getLsbD (cx88Config.mask.lowest + 1) = true := by
      rw [← BitVec.getLsbD_ushiftRight, ← code]
      decide
    exact absurd (Word.and_eq_self_iff.mp free _ line) (by decide +kernel)

end RemoteKeys
