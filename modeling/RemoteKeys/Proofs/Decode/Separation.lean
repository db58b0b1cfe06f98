import Mathlib.Data.BitVec
import RemoteKeys.Proofs.Cards
import RemoteKeys.Proofs.Config.Admission

/-!
# Decoding tells key states apart

A key state is what the selected lines of a reading show. Neither way of reading a code off a word
loses any of it: a packed code has each selected line's bit at a place of its own, and a window has
it as far down as all the others. Nor does either take anything from the lines that are not
selected.

## Main result

`Config.decode_eq_iff`: two readings spell the same where both are locked, or neither is and the
lines that the configuration selects show the same.
-/

namespace RemoteKeys

namespace Word

/-- The bits of a word that another one selects, one by one. -/
theorem and_eq_and_iff {mask a b : Word} :
    a &&& mask = b &&& mask ↔ ∀ i, mask.getLsbD i = true → a.getLsbD i = b.getLsbD i := by
  constructor
  · intro same i selected
    have bit := congrArg (fun w : Word => w.getLsbD i) same
    simpa [selected] using bit
  · intro agree
    apply BitVec.eq_of_getLsbD_eq
    intro i _
    cases selected : mask.getLsbD i with
    | false => simp [selected]
    | true => simp [selected, agree i selected]

end Word

namespace KeyMask

/-! ### Key states and codes -/

theorem pack_eq_iff {m : KeyMask} {a b : Word} :
    m.pack a = m.pack b ↔ a &&& m.word = b &&& m.word := by
  rw [pack, pack, Word.gather_eq_iff (Nat.le_refl _), Word.and_eq_and_iff]
  constructor
  · intro agree i selected
    exact agree i (BitVec.lt_of_getLsbD selected) selected
  · intro agree i _ selected
    exact agree i selected

theorem getLsbD_window (m : KeyMask) (raw : Word) (k : Nat) :
    (m.window raw).getLsbD k = (raw.getLsbD (m.offset + k) && m.word.getLsbD (m.offset + k)) := by
  simp [window, bits, BitVec.getLsbD_ushiftRight]

private theorem window_eq_iff {m : KeyMask} {a b : Word} :
    m.window a = m.window b ↔ a &&& m.word = b &&& m.word := by
  rw [Word.and_eq_and_iff]
  constructor
  · intro same i selected
    -- No selected line is below the lowest one, so the window goes down to this one.
    have reached : m.offset ≤ i := Word.lowest_le selected
    have bit := congrArg (fun w : Word => w.getLsbD (i - m.offset)) same
    simpa only [getLsbD_window, Nat.add_sub_cancel' reached, selected, Bool.and_true] using bit
  · intro agree
    apply BitVec.eq_of_getLsbD_eq
    intro k _
    rw [getLsbD_window, getLsbD_window]
    cases selected : m.word.getLsbD (m.offset + k) with
    | false => simp
    | true => rw [agree _ selected]

end KeyMask

/-! ### Readings -/

/-- Turning lines round hides no difference between two readings. -/
theorem Word.xor_and_eq_iff {mask flip a b : Word} :
    (a ^^^ flip) &&& mask = (b ^^^ flip) &&& mask ↔ a &&& mask = b &&& mask := by
  simp [Word.and_eq_and_iff]

namespace Setup

variable {s : Setup} {raw : Word}

theorem decode_of_meets (locked : raw.Meets s.lockMask) : s.decode raw = none :=
  if_pos locked

theorem decode_of_polled (polled : s.trigger = .polled) (free : ¬ raw.Meets s.lockMask) :
    s.decode raw = some (s.mask.pack (raw ^^^ s.invertMask)) := by
  rw [decode, if_neg free, polled]

theorem decode_of_interrupt (interrupt : s.trigger = .interrupt) (free : ¬ raw.Meets s.lockMask) :
    s.decode raw = some (s.mask.window raw) := by
  rw [decode, if_neg free, interrupt]

theorem exists_decode_of_not_meets (free : ¬ raw.Meets s.lockMask) :
    ∃ code, s.decode raw = some code := by
  cases trigger : s.trigger with
  | polled => exact ⟨_, decode_of_polled trigger free⟩
  | interrupt => exact ⟨_, decode_of_interrupt trigger free⟩

theorem decode_eq_none_iff : s.decode raw = none ↔ raw.Meets s.lockMask := by
  by_cases locked : raw.Meets s.lockMask
  · exact iff_of_true (decode_of_meets locked) locked
  · obtain ⟨code, spelled⟩ := exists_decode_of_not_meets locked
    rw [spelled]
    exact iff_of_false nofun locked

theorem decode_eq_iff_of_not_meets {a b : Word} (free_a : ¬ a.Meets s.lockMask)
    (free_b : ¬ b.Meets s.lockMask) :
    s.decode a = s.decode b ↔ a &&& s.mask.word = b &&& s.mask.word := by
  cases trigger : s.trigger with
  | polled =>
    rw [decode_of_polled trigger free_a, decode_of_polled trigger free_b, Option.some.injEq,
      KeyMask.pack_eq_iff, Word.xor_and_eq_iff]
  | interrupt =>
    rw [decode_of_interrupt trigger free_a, decode_of_interrupt trigger free_b, Option.some.injEq,
      KeyMask.window_eq_iff]

end Setup

/-! ### Main result -/

/--
Two readings of an admitted card spell the same code, or none, exactly where both have a lock line
set, or neither has one and the lines that carry the code show the same.
-/
theorem Config.decode_eq_iff {c : Config} {s : Setup} (admitted : c.setup = .ok s) (a b : Word) :
    s.decode a = s.decode b ↔
      (a.Meets c.lockMask ∧ b.Meets c.lockMask) ∨
        (¬ a.Meets c.lockMask ∧ ¬ b.Meets c.lockMask ∧ a &&& c.mask = b &&& c.mask) := by
  obtain ⟨-, mask, lockMask, -⟩ := Config.setup_eq_ok admitted
  rw [← mask, ← lockMask]
  by_cases locked_a : a.Meets s.lockMask <;> by_cases locked_b : b.Meets s.lockMask
  · simp [Setup.decode_of_meets, locked_a, locked_b]
  · obtain ⟨code, spelled⟩ := Setup.exists_decode_of_not_meets locked_b
    simp [Setup.decode_of_meets locked_a, locked_a, locked_b, spelled]
  · obtain ⟨code, spelled⟩ := Setup.exists_decode_of_not_meets locked_a
    simp [Setup.decode_of_meets locked_b, locked_a, locked_b, spelled]
  · simp [Setup.decode_eq_iff_of_not_meets locked_a locked_b, locked_a, locked_b]

/-- Lines between the selected ones do not count, the selected ones do, and a lock line hides them
all. -/
theorem decode_eq_iff_cx88 :
    cx88Config.setup = .ok cx88 ∧ cx88.decode 0x70088e42 = cx88.decode 0x88000 ∧
      cx88.decode 0x88000 ≠ cx88.decode 0x108000 ∧ cx88.decode 0x88001 = cx88.decode 0x108001 ∧
        cx88.decode 0x88001 ≠ cx88.decode 0x88000 := by
  have admitted : cx88Config.setup = .ok cx88 := by decide +kernel
  have spells := fun a b => Config.decode_eq_iff admitted a b
  exact ⟨admitted, (spells _ _).mpr (by decide), mt (spells _ _).mp (by decide),
    (spells _ _).mpr (by decide), mt (spells _ _).mp (by decide)⟩

end RemoteKeys
