import Mathlib.Data.List.Induction
import RemoteKeys.Proofs.Word.Gather
import RemoteKeys.Register.PinRow

/-!
# Whole reads of a pin row

A row of pins gives a word only if it can read all of its pins. What it gives, and whether it does,
is told by what was done to the pins: each bit is the level that its pin was driven to last, and the
read fails as long as there is a pin that failed and was not driven since. Reading does nothing to a
pin, so that nothing is left of a failure once its pin is driven.

## Main result

`PinRow.reads_whole`: after any steps, when a read of a row fails and what it gives otherwise.

## Proof strategy

What one step leaves of a pin's level (`Step.leave`) is both what it does to the row
(`map_high?_step`) and how the history of the pin goes on (`level?_concat`), so that after any steps
the levels of the row are those of its history (`map_high?_after`). A word is put together from
levels that are all there, and from no others.
-/

namespace RemoteKeys

/-! ### Words from levels -/

/-- The word whose lowest bits are the levels, the first level being bit 0. -/
def Word.ofLevels (levels : List Bool) : Word := (BitVec.ofBoolListLE levels).setWidth 32

private theorem Word.getLsbD_ofLevels (levels : List Bool) (i : Nat) :
    (ofLevels levels).getLsbD i = (decide (i < 32) && levels.getD i false) := by
  rw [ofLevels, BitVec.getLsbD_setWidth, BitVec.getLsbD_ofBoolListLE]

private theorem Word.ofLevels_cons (high : Bool) (levels : List Bool) :
    ofLevels (high :: levels) = (ofLevels levels <<< 1) ||| (if high then 1 else 0) := by
  apply BitVec.eq_of_getLsbD_eq
  intro i inside
  rw [getLsbD_ofLevels, BitVec.getLsbD_or, BitVec.getLsbD_shiftLeft, getLsbD_ofLevels]
  cases i with
  | zero => cases high <;> simp
  | succ i =>
    have below : i < 32 := Nat.lt_of_succ_lt inside
    cases high <;> simp [inside, below]

private theorem Word.toNat_ofLevels_lt (levels : List Bool) :
    (ofLevels levels).toNat < 2 ^ levels.length := by
  rw [ofLevels, BitVec.toNat_setWidth]
  exact Nat.lt_of_le_of_lt (Nat.mod_le ..) (BitVec.isLt _)

namespace PinRow

private theorem assemble_of_levels {pins : List Pin} {levels : List Bool}
    (there : pins.map Pin.high? = levels.map some) :
    assemble pins = .ok (Word.ofLevels levels) := by
  induction pins generalizing levels with
  | nil =>
    obtain rfl := List.map_eq_nil_iff.mp there.symm
    rfl
  | cons pin higher ih =>
    cases levels with
    | nil => cases there
    | cons high levels =>
      obtain ⟨level, others⟩ := List.cons.inj there
      rw [assemble, ih others, Pin.readHigh, level, Word.ofLevels_cons]
      rfl

private theorem assemble_of_unreadable {pins : List Pin} (missing : none ∈ pins.map Pin.high?) :
    assemble pins = .error .unreadable := by
  -- The lowest pin is read first, and whatever it gives is lost where a higher one fails.
  induction pins with
  | nil => cases missing
  | cons pin higher ih =>
    cases level : pin.high? with
    | none =>
      rw [assemble, Pin.readHigh, level]
      rfl
    | some high =>
      rw [List.map_cons, level] at missing
      rw [assemble, Pin.readHigh, level, ih ((List.mem_cons.mp missing).resolve_left nofun)]
      rfl

/-! ### What was done to a pin -/

/-- The level that the step drives pin `i` to. -/
def Step.drives? (i : Nat) : Step → Option Bool
  | .drive pin high => if pin = i then some high else none
  | _ => none

/-- The step drives pin `i` or makes it fail. -/
def Step.sets (i : Nat) : Step → Bool
  | .drive pin _ | .fail pin => pin = i
  | .read _ | .readLow _ => false

/-- The step reads the row or a pin of it. -/
def Step.isRead : Step → Bool
  | .drive .. | .fail _ => false
  | .read _ | .readLow _ => true

/-- The level that pin `i` was driven to last; a pin that was never driven is low. -/
def lastLevel (past : List Step) (i : Nat) : Bool := (past.findSomeRev? (Step.drives? i)).getD false

/-- Pin `i` failed, and was not driven since. -/
def Failed (past : List Step) (i : Nat) : Prop := past.findRev? (Step.sets i) = some (.fail i)

instance (past : List Step) (i : Nat) : Decidable (Failed past i) :=
  inferInstanceAs (Decidable (past.findRev? (Step.sets i) = some (.fail i)))

/-- What the past of pin `i` says of its level. -/
def level? (past : List Step) (i : Nat) : Option Bool :=
  if Failed past i then none else some (lastLevel past i)

/-- What a step leaves of the level of pin `i`. -/
def Step.leave (s : Step) (i : Nat) (level? : Option Bool) : Option Bool :=
  match s with
  | .drive pin high => if pin = i then some high else level?
  | .fail pin => if pin = i then none else level?
  | .read _ | .readLow _ => level?

/-- The row that the steps leave. -/
def after (row : PinRow) (steps : List Step) : PinRow := (row.run steps).2

variable {n i : Nat} {past later : List Step}

private theorem lastLevel_concat (past : List Step) (s : Step) (i : Nat) :
    lastLevel (past ++ [s]) i = (s.drives? i).getD (lastLevel past i) := by
  rw [lastLevel, lastLevel, List.findSomeRev?_eq_findSome?_reverse, List.reverse_concat,
    List.findSome?_cons, ← List.findSomeRev?_eq_findSome?_reverse]
  cases s.drives? i <;> rfl

private theorem level?_concat (past : List Step) (s : Step) (i : Nat) :
    level? (past ++ [s]) i = s.leave i (level? past i) := by
  have last_set : (past ++ [s]).findRev? (Step.sets i) =
      if s.sets i then some s else past.findRev? (Step.sets i) := by
    rw [List.findRev?_eq_find?_reverse, List.reverse_concat, List.find?_cons,
      ← List.findRev?_eq_find?_reverse]
    cases s.sets i <;> rfl
  simp only [level?, Failed, last_set, lastLevel_concat]
  -- A step on another pin is none of the past of this one.
  cases s with
  | drive pin high => by_cases same : pin = i <;> simp [Step.sets, Step.drives?, Step.leave, same]
  | fail pin => by_cases same : pin = i <;> simp [Step.sets, Step.drives?, Step.leave, same]
  | read minor => rfl
  | readLow pin => rfl

private theorem failed_iff : Failed past i ↔ level? past i = none := by
  rw [level?]
  split
  · next failed => simp [failed]
  · next working => simp [working]

private theorem failed_concat_iff {s : Step} (kept : ∀ pin, s ≠ .fail pin) :
    Failed (past ++ [s]) i ↔ Failed past i ∧ ∀ high, s ≠ .drive i high := by
  rw [failed_iff, failed_iff, level?_concat]
  cases s with
  | drive pin high => by_cases same : pin = i <;> simp [Step.leave, same]
  | fail pin => exact absurd rfl (kept pin)
  | read minor => simp [Step.leave]
  | readLow pin => simp [Step.leave]

/-- Where no pin fails any more, those have still failed that are not driven. -/
theorem failed_append_iff (kept : ∀ pin, .fail pin ∉ later) :
    Failed (past ++ later) i ↔ Failed past i ∧ ∀ high, .drive i high ∉ later := by
  induction later using List.reverseRecOn with
  | nil => simp
  | append_singleton later s ih =>
    simp only [List.mem_append, List.mem_singleton, not_or] at kept ⊢
    have kept_last (pin : Nat) : s ≠ .fail pin := fun same => (kept pin).2 same.symm
    rw [← List.append_assoc, failed_concat_iff kept_last, ih fun pin => (kept pin).1, and_assoc,
      ← forall_and]
    simp only [ne_eq, eq_comm]

/-! ### Runs -/

private theorem after_append (row : PinRow) (past later : List Step) :
    row.after (past ++ later) = (row.after past).after later := by
  induction past generalizing row with
  | nil => rfl
  | cons s past ih => exact ih (row.step s).2

private theorem after_concat (row : PinRow) (past : List Step) (s : Step) :
    row.after (past ++ [s]) = ((row.after past).step s).2 := by
  rw [after_append]
  rfl

private theorem map_high?_modify (row : PinRow) (pin : Nat) {change : Pin → Pin}
    {level? : Option Bool} (changes : ∀ there, (change there).high? = level?) :
    (row.modify pin change).pins.map Pin.high? =
      (row.pins.map Pin.high?).mapIdx fun i kept => if pin = i then level? else kept := by
  apply List.ext_getElem?
  intro i
  rw [modify, List.getElem?_map, List.getElem?_modify, List.getElem?_mapIdx, List.getElem?_map]
  cases row.pins[i]? with
  | none => rfl
  | some there => by_cases same : pin = i <;> simp [same, changes]

private theorem map_high?_step (row : PinRow) (s : Step) :
    (row.step s).2.pins.map Pin.high? = (row.pins.map Pin.high?).mapIdx s.leave := by
  have unchanged : row.pins.map Pin.high? = (row.pins.map Pin.high?).mapIdx fun _ kept => kept := by
    simp [List.mapIdx_eq_zipIdx_map]
  cases s with
  | drive pin high => exact row.map_high?_modify pin fun _ => rfl
  | fail pin => exact row.map_high?_modify pin fun _ => rfl
  | read minor => exact unchanged
  | readLow pin =>
    rw [step]
    split <;> exact unchanged

/-- The levels of a row are those of its history. -/
theorem map_high?_after (n : Nat) (past : List Step) :
    ((ofSize n).after past).pins.map Pin.high? =
      (List.range (min n wordBits)).map (level? past) := by
  -- From the end: the last step finds the levels of the past in front of it, and leaves those of
  -- the whole.
  induction past using List.reverseRecOn with
  | nil =>
    rw [after, run, ofSize, List.map_map]
    rfl
  | append_singleton past s ih =>
    rw [after_concat, map_high?_step, ih]
    apply List.ext_getElem?
    intro i
    rw [List.getElem?_mapIdx, List.getElem?_map, List.getElem?_map]
    cases position : (List.range (min n wordBits))[i]? with
    | none => rfl
    | some j =>
      obtain ⟨-, rfl⟩ := List.getElem?_eq_some_iff.mp position
      simp [level?_concat]

/-- Reading leaves no trace: the row is what driving and failing alone would have made of it. -/
theorem after_filter_not_isRead (row : PinRow) (past : List Step) :
    row.after (past.filter fun s => !s.isRead) = row.after past := by
  induction past generalizing row with
  | nil => rfl
  | cons s past ih =>
    have read_same (reads : s.isRead = true) : (row.step s).2 = row := by
      cases s with
      | drive pin high | fail pin => cases reads
      | read minor => rfl
      | readLow pin =>
        rw [step]
        split <;> rfl
    cases reads : s.isRead with
    | false =>
      rw [List.filter_cons_of_pos (by rw [reads]; rfl)]
      exact ih (row.step s).2
    | true =>
      rw [List.filter_cons_of_neg (by rw [reads]; decide), ih]
      exact congrArg (after · past) (read_same reads).symm

/-! ### Reads -/

/-- Whichever card is asked for, a read fails. -/
def Fails (row : PinRow) : Prop := ∀ minor, ∃ failure, (row.read minor).1 = .error failure

/-- Whichever card is asked for, a read gives the word. -/
def Gives (row : PinRow) (word : Word) : Prop := ∀ minor, (row.read minor).1 = .ok word

private theorem not_fails_of_gives {row : PinRow} {word : Word} (gives : row.Gives word) :
    ¬ row.Fails := by
  intro fails
  obtain ⟨failure, failed⟩ := fails 0
  cases (gives 0).symm.trans failed

private theorem fails_of_failed (fits : n ≤ wordBits) (inside : i < n) (failed : Failed past i) :
    ((ofSize n).after past).Fails := by
  refine fun _ => ⟨.unreadable, assemble_of_unreadable ?_⟩
  rw [map_high?_after, Nat.min_eq_left fits]
  exact List.mem_map.mpr ⟨i, List.mem_range.mpr inside, if_pos failed⟩

private theorem gives_of_none_failed (fits : n ≤ wordBits) (working : ∀ i < n, ¬ Failed past i) :
    ((ofSize n).after past).Gives (Word.ofLevels ((List.range n).map (lastLevel past))) := by
  refine fun _ => assemble_of_levels ?_
  rw [map_high?_after, Nat.min_eq_left fits, List.map_map]
  exact List.map_congr_left fun i mem => if_neg (working i (List.mem_range.mp mem))

private theorem exists_gives_iff (fits : n ≤ wordBits) (past : List Step) :
    (∃ word, ((ofSize n).after past).Gives word) ↔ ∀ i < n, ¬ Failed past i := by
  constructor
  · rintro ⟨word, gives⟩ i inside failed
    exact not_fails_of_gives gives (fails_of_failed fits inside failed)
  · intro working
    exact ⟨_, gives_of_none_failed fits working⟩

private theorem fails_iff (fits : n ≤ wordBits) (past : List Step) :
    ((ofSize n).after past).Fails ↔ ∃ i < n, Failed past i := by
  constructor
  · intro fails
    by_contra none_failed
    obtain ⟨word, gives⟩ :=
      (exists_gives_iff fits past).mpr fun i inside failed => none_failed ⟨i, inside, failed⟩
    exact not_fails_of_gives gives fails
  · rintro ⟨i, inside, failed⟩
    exact fails_of_failed fits inside failed

private theorem getLsbD_ofLevels_range (fits : n ≤ wordBits) (level : Nat → Bool) (i : Nat) :
    (Word.ofLevels ((List.range n).map level)).getLsbD i = (decide (i < n) && level i) := by
  rw [Word.getLsbD_ofLevels]
  by_cases inside : i < n
  · have in_word : i < 32 := Nat.lt_of_lt_of_le inside fits
    simp [inside, in_word]
  · simp [inside]

/-- A row that can be read still can once one of its pins is driven, which changes the bit of that
pin. -/
theorem gives_of_drive (fits : n ≤ wordBits) {pin : Nat} (inside : pin < n) (high : Bool)
    {word : Word} (gives : ((ofSize n).after past).Gives word) :
    ∃ driven, (((ofSize n).after past).after [.drive pin high]).Gives driven ∧
      ∀ i, driven.getLsbD i = if i = pin then high else word.getLsbD i := by
  have working := (exists_gives_iff fits past).mp ⟨word, gives⟩
  have still_working : ∀ i < n, ¬ Failed (past ++ [.drive pin high]) i := fun i here failed =>
    working i here ((failed_append_iff (by simp)).mp failed).1
  obtain rfl := Except.ok.inj ((gives 0).symm.trans (gives_of_none_failed fits working 0))
  refine ⟨_, after_append _ past _ ▸ gives_of_none_failed fits still_working, fun i => ?_⟩
  rw [getLsbD_ofLevels_range fits, getLsbD_ofLevels_range fits, lastLevel_concat, Step.drives?]
  by_cases same : i = pin
  · simp [same, inside]
  · simp [same, Ne.symm same]

/-! ### Main result -/

/--
A row of at most as many pins as a word has bits, after any steps. A read fails just when one of its
pins failed and was not driven since. Otherwise it gives a word below the power of two that belongs
to the row, whose bits are the levels that the pins were driven to last, whichever card is asked
for. Reads change no pin. So the row can be read again as soon as every failed pin was driven, and
with one pin driven its bit is the new level and the others stay.
-/
theorem reads_whole {n : Nat} (fits : n ≤ wordBits) (past : List Step) :
    let row := (ofSize n).after past
    (row.Fails ↔ ∃ i < n, Failed past i) ∧
    (¬ row.Fails → ∃ word, row.Gives word ∧ word.toNat < 2 ^ n ∧
      ∀ i < n, word.getLsbD i = lastLevel past i) ∧
    (∀ minor, (row.read minor).2 = row) ∧ (ofSize n).after (past.filter fun s => !s.isRead) = row ∧
    (∀ later, (∀ i, .fail i ∉ later) → ((∃ word, (row.after later).Gives word) ↔
      ∀ i < n, Failed past i → ∃ high, .drive i high ∈ later)) ∧
    ∀ pin < n, ∀ high word, row.Gives word → ∃ driven, (row.after [.drive pin high]).Gives driven ∧
      driven.getLsbD pin = high ∧ ∀ i, i ≠ pin → driven.getLsbD i = word.getLsbD i := by
  intro row
  refine ⟨fails_iff fits past, fun reads => ?_, fun _ => rfl, after_filter_not_isRead _ past,
    fun later kept => ?_, fun pin inside high word gives => ?_⟩
  · have working (i : Nat) (inside : i < n) (failed : Failed past i) : False :=
      reads ((fails_iff fits past).mpr ⟨i, inside, failed⟩)
    refine ⟨_, gives_of_none_failed fits working, ?_, fun i inside => ?_⟩
    · simpa using Word.toNat_ofLevels_lt ((List.range n).map (lastLevel past))
    · rw [getLsbD_ofLevels_range fits, decide_eq_true inside, Bool.true_and]
  · rw [← after_append, exists_gives_iff fits]
    simp only [failed_append_iff kept, not_and, not_forall, not_not]
  · obtain ⟨driven, given, bits⟩ := gives_of_drive fits inside high gives
    refine ⟨driven, given, ?_, fun i other => ?_⟩
    · rw [bits, if_pos rfl]
    · rw [bits, if_neg other]

/-- Three pins, the first one high and the second one failed, which is driven to high after another
read. -/
theorem reads_whole_three :
    let past : List Step := [.drive 0 true, .fail 1, .read 2]
    let later : List Step := [.read 3, .drive 1 true]
    let row := (ofSize 3).after past
    3 ≤ wordBits ∧ row.Fails ∧ (∀ i, .fail i ∉ later) ∧ ∃ word, (row.after later).Gives word ∧
      word.toNat < 2 ^ 3 ∧
      word.getLsbD 0 = true ∧ word.getLsbD 1 = true ∧ word.getLsbD 2 = false := by
  intro past later row
  have fits : 3 ≤ wordBits := by decide
  have only_second : ∀ i < 3, Failed past i → i = 1 := by decide
  have kept (i : Nat) : .fail i ∉ later := by simp [later]
  obtain ⟨fails_iff, -, -, -, recovers, -⟩ := reads_whole fits past
  have fails := fails_iff.mpr ⟨1, by decide, by decide⟩
  have recovered : ∃ word, (row.after later).Gives word := by
    refine (recovers later kept).mpr fun i inside failed => ⟨true, ?_⟩
    rw [only_second i inside failed]
    simp [later]
  obtain ⟨-, gives, -⟩ := reads_whole fits (past ++ later)
  rw [after_append] at gives
  obtain ⟨word, given, small, bits⟩ := gives (recovered.elim fun _ => not_fails_of_gives)
  exact ⟨fits, fails, kept, word, given, small, (bits 0 (by decide)).trans (by decide),
    (bits 1 (by decide)).trans (by decide), (bits 2 (by decide)).trans (by decide)⟩

end PinRow

end RemoteKeys
