import Mathlib.Algebra.Order.Floor.Div
import RemoteKeys.Config.Admission
import RemoteKeys.Proofs.Cards
import RemoteKeys.Proofs.Except
import RemoteKeys.Proofs.Word.Extent

/-!
# Admitting configurations

The constraints on a configuration are a table: what the card's number, its lines, and the
parameters that its trigger uses have to satisfy, each with the fault of breaking it. Rates are
bounded by products rather than by quotients here, and widths by the lines of the mask rather than
by its shifted bits.

## Main result

`Config.setup_checks_constraints`: a configuration is admitted exactly when it satisfies the table,
and rejected for the first line that it breaks. A setup has what was configured, with defaults for
what was left out and nothing of what the trigger ignores.
-/

namespace RemoteKeys

/-- The fault is that of the first constraint in the table that does not hold. -/
def FirstBroken (fault : ConfigFault) (table : List (Prop × ConfigFault)) : Prop :=
  ∃ before constraint after, table = before ++ (constraint, fault) :: after ∧
    (∀ entry ∈ before, entry.1) ∧ ¬ constraint

namespace Config

/-- The constraints on what the trigger uses. -/
def driveConstraints (c : Config) : List (Prop × ConfigFault) :=
  match c.trigger with
  | .polled => [
    (2 ≤ c.rate ∧ c.rate ≤ 50, .badRate c.rate),
    (c.gapMs = 0 ∨ 2000 ≤ c.gapMs * c.rate, .shortGap c.gapMs (2000 ⌈/⌉ c.rate))]
  | .interrupt => [
    (100 ≤ c.gapMs ∧ c.gapMs ≤ 1000, .badGap c.gapMs),
    (1 ≤ c.width ∧ c.width ≤ 16, .badWidth c.width),
    (c.mask.extent ≤ c.width, .narrowWidth c.width c.mask.extent)]

/-- The constraints on a configuration in the order in which they are checked, each with the fault
of breaking it. -/
def constraints (c : Config) : List (Prop × ConfigFault) :=
  (c.minor < 4, .noSuchCard c.minor) :: (c.mask ≠ 0, .emptyMask) :: c.driveConstraints

/-- The setup has what was configured, as far as the trigger uses it, and a long enough quiet period
where a polled card was given none. -/
structure NormalisedAs (c : Config) (s : Setup) : Prop where
  card : s.minor = c.minor ∧ s.mask.word = c.mask ∧ s.lockMask = c.lockMask ∧ s.trigger = c.trigger
  polled : c.trigger = .polled → s.invertMask = c.invertMask ∧ s.rate? = some c.rate ∧
    s.width = (c.mask.positions wordBits).length ∧
    s.gapMs = if c.gapMs = 0 then max 400 (2000 ⌈/⌉ c.rate) else c.gapMs
  interrupt : c.trigger = .interrupt → s.invertMask = 0 ∧ s.rate? = none ∧
    s.width = c.width ∧ s.gapMs = c.gapMs

/-- The configurations differ in nothing that their trigger uses. -/
structure AgreesOnUsed (a b : Config) : Prop where
  card : a.trigger = b.trigger ∧ a.minor = b.minor ∧ a.mask = b.mask ∧ a.lockMask = b.lockMask ∧
    a.gapMs = b.gapMs
  polled : a.trigger = .polled → a.invertMask = b.invertMask ∧ a.rate = b.rate
  interrupt : a.trigger = .interrupt → a.width = b.width

end Config

/-! ### First faults of a table -/

private theorem FirstBroken.exists_mem {fault : ConfigFault} {table : List (Prop × ConfigFault)}
    (first : FirstBroken fault table) :
    ∃ constraint, (constraint, fault) ∈ table ∧ ¬ constraint := by
  obtain ⟨before, constraint, after, rfl, -, broken⟩ := first
  exact ⟨constraint, by simp, broken⟩

private theorem not_firstBroken_nil (fault : ConfigFault) : ¬ FirstBroken fault [] := by
  intro first
  obtain ⟨_, mem, -⟩ := first.exists_mem
  cases mem

private theorem firstBroken_cons_of_pos {constraint : Prop} {fault broken : ConfigFault}
    {later : List (Prop × ConfigFault)} (satisfied : constraint) :
    FirstBroken fault ((constraint, broken) :: later) ↔ FirstBroken fault later := by
  constructor
  · rintro ⟨before, failing, after, split, satisfied_before, fails⟩
    rcases before with _ | ⟨entry, before⟩
    · cases split
      exact absurd satisfied fails
    · obtain ⟨rfl, rfl⟩ := List.cons.inj split
      exact ⟨before, failing, after, rfl, (List.forall_mem_cons.mp satisfied_before).2, fails⟩
  · rintro ⟨before, failing, after, rfl, satisfied_before, fails⟩
    exact ⟨_ :: before, failing, after, rfl, List.forall_mem_cons.mpr ⟨satisfied, satisfied_before⟩,
      fails⟩

private theorem firstBroken_cons_of_neg {constraint : Prop} {fault broken : ConfigFault}
    {later : List (Prop × ConfigFault)} (unsatisfied : ¬ constraint) :
    FirstBroken fault ((constraint, broken) :: later) ↔ fault = broken := by
  constructor
  · rintro ⟨before, failing, after, split, satisfied_before, -⟩
    rcases before with _ | ⟨entry, before⟩
    · cases split
      rfl
    · obtain ⟨rfl, -⟩ := List.cons.inj split
      exact absurd (satisfied_before _ List.mem_cons_self) unsatisfied
  · rintro rfl
    exact ⟨[], constraint, later, rfl, by simp, unsatisfied⟩

private theorem exists_firstBroken_iff {table : List (Prop × ConfigFault)} :
    (∃ fault, FirstBroken fault table) ↔ ¬ ∀ entry ∈ table, entry.1 := by
  induction table with
  | nil => exact iff_of_false (fun ⟨fault, first⟩ => not_firstBroken_nil fault first) (by simp)
  | cons entry later ih =>
    obtain ⟨constraint, fault⟩ := entry
    rw [List.forall_mem_cons]
    by_cases satisfied : constraint
    · simp only [firstBroken_cons_of_pos satisfied, ih]
      rw [and_iff_right satisfied]
    · exact iff_of_true ⟨fault, (firstBroken_cons_of_neg satisfied).mpr rfl⟩ fun all =>
        satisfied all.1

/-! ### Quiet periods of polled cards -/

private theorem Rate.leastGapMs_eq_ceilDiv {rate : Nat} (positive : 0 < rate) :
    leastGapMs rate = 2000 ⌈/⌉ rate := by
  rw [leastGapMs, if_neg (Nat.ne_of_gt positive), Nat.ceilDiv_eq_add_pred_div]

namespace Config

/-- The quiet period that the driver chooses is always long enough. -/
theorem leastGapMs_le_polledGapMs_iff {c : Config} (admitted : rateBounds.Admit c.rate) :
    Rate.leastGapMs c.rate ≤ c.polledGapMs ↔ c.gapMs = 0 ∨ 2000 ≤ c.gapMs * c.rate := by
  have positive : 0 < c.rate := Nat.lt_of_lt_of_le (by decide) admitted.1
  unfold polledGapMs
  by_cases unset : c.gapMs = 0
  · rw [if_pos unset]
    exact iff_of_true (Nat.le_max_right ..) (Or.inl unset)
  · rw [if_neg unset, Rate.leastGapMs_le_iff positive, or_iff_right unset]

private theorem drive_eq_error_iff {c : Config} {mask : KeyMask} {fault : ConfigFault}
    (selects : mask.word = c.mask) :
    c.drive mask = .error fault ↔ FirstBroken fault c.driveConstraints := by
  unfold drive driveConstraints
  -- Check by check, against the head of what is left of the table.
  cases c.trigger with
  | polled =>
    dsimp only
    by_cases rate : 2 ≤ c.rate ∧ c.rate ≤ 50
    · have rate_admitted : rateBounds.Admit c.rate := rate
      have covers := leastGapMs_le_polledGapMs_iff rate_admitted
      rw [dif_pos rate_admitted, firstBroken_cons_of_pos rate]
      by_cases gap : c.gapMs = 0 ∨ 2000 ≤ c.gapMs * c.rate
      · rw [dif_pos (covers.mpr gap), firstBroken_cons_of_pos gap]
        exact iff_of_false nofun (not_firstBroken_nil fault)
      · -- The gap was configured, since the driver's own choice would do.
        have configured : c.polledGapMs = c.gapMs := if_neg fun unset => gap (Or.inl unset)
        have least := Rate.leastGapMs_eq_ceilDiv (Nat.lt_of_lt_of_le Nat.two_pos rate.1)
        rw [dif_neg (mt covers.mp gap), firstBroken_cons_of_neg gap, configured, least,
          Except.error.injEq, eq_comm]
    · rw [dif_neg (show ¬ rateBounds.Admit c.rate from rate), firstBroken_cons_of_neg rate,
        Except.error.injEq, eq_comm]
  | interrupt =>
    dsimp only
    have reach : mask.reach = c.mask.extent := selects ▸ mask.reach_eq_extent
    by_cases gap : 100 ≤ c.gapMs ∧ c.gapMs ≤ 1000
    · rw [dif_pos (show interruptGapBounds.Admit c.gapMs from gap), firstBroken_cons_of_pos gap]
      by_cases width : 1 ≤ c.width ∧ c.width ≤ 16
      · rw [dif_pos (show widthBounds.Admit c.width from width), firstBroken_cons_of_pos width]
        by_cases covers : c.mask.extent ≤ c.width
        · rw [dif_pos (reach ▸ covers), firstBroken_cons_of_pos covers]
          exact iff_of_false nofun (not_firstBroken_nil fault)
        · rw [dif_neg (reach ▸ covers), firstBroken_cons_of_neg covers, reach,
            Except.error.injEq, eq_comm]
      · rw [dif_neg (show ¬ widthBounds.Admit c.width from width), firstBroken_cons_of_neg width,
          Except.error.injEq, eq_comm]
    · rw [dif_neg (show ¬ interruptGapBounds.Admit c.gapMs from gap), firstBroken_cons_of_neg gap,
        Except.error.injEq, eq_comm]

private theorem setup_eq_error_iff {c : Config} {fault : ConfigFault} :
    c.setup = .error fault ↔ FirstBroken fault c.constraints := by
  unfold setup constraints
  by_cases minor : c.minor < 4
  · rw [dif_pos (show IsMinor c.minor from minor), firstBroken_cons_of_pos minor]
    cases selected : KeyMask.ofWord? c.mask with
    | none =>
      have empty := KeyMask.ofWord?_eq_none_iff.mp selected
      rw [firstBroken_cons_of_neg (not_not.mpr empty), Except.error.injEq, eq_comm]
    | some mask =>
      have selects := KeyMask.ofWord?_eq_some_iff.mp selected
      have nonempty : c.mask ≠ 0 := selects ▸ mask.ne_zero
      rw [firstBroken_cons_of_pos nonempty]
      exact Except.map_eq_error_iff.trans (drive_eq_error_iff selects)
  · rw [dif_neg (show ¬ IsMinor c.minor from minor), firstBroken_cons_of_neg minor,
      Except.error.injEq, eq_comm]

theorem exists_setup_iff {c : Config} :
    (∃ s, c.setup = .ok s) ↔ ∀ entry ∈ c.constraints, entry.1 := by
  rw [← not_iff_not, ← exists_firstBroken_iff]
  simp only [← setup_eq_error_iff]
  cases c.setup <;> simp

/-! ### What a setup has -/

theorem setup_eq_ok {c : Config} {s : Setup} (admitted : c.setup = .ok s) :
    s.minor = c.minor ∧ s.mask.word = c.mask ∧ s.lockMask = c.lockMask ∧
    c.drive s.mask = .ok s.drive := by
  unfold setup at admitted
  split at admitted
  · split at admitted
    · cases admitted
    · next mask selects =>
      obtain ⟨drive, driven, made⟩ := Except.map_eq_ok_iff.mp admitted
      cases made
      exact ⟨rfl, KeyMask.ofWord?_eq_some_iff.mp selects, rfl, driven⟩
  · cases admitted

/-- An admitted card is driven as its trigger asks for. -/
theorem drive_eq_ok {c : Config} {mask : KeyMask} {drive : Drive mask}
    (driven : c.drive mask = .ok drive) :
    (c.trigger = .polled ∧ ∃ rate_admitted gap_covers,
        drive = .polled c.rate c.polledGapMs c.invertMask rate_admitted gap_covers) ∨
      (c.trigger = .interrupt ∧ ∃ gap_admitted width_admitted reach_le,
        drive = .interrupt c.gapMs c.width gap_admitted width_admitted reach_le) := by
  unfold Config.drive at driven
  cases trigger : c.trigger with
  | polled =>
    simp only [trigger] at driven
    split at driven
    next rate_admitted =>
      split at driven
      next gap_covers => exact Or.inl ⟨rfl, rate_admitted, gap_covers, (Except.ok.inj driven).symm⟩
      · cases driven
    · cases driven
  | interrupt =>
    simp only [trigger] at driven
    split at driven
    next gap_admitted =>
      split at driven
      next width_admitted =>
        split at driven
        next reach_le =>
          exact Or.inr ⟨rfl, gap_admitted, width_admitted, reach_le, (Except.ok.inj driven).symm⟩
        · cases driven
      · cases driven
    · cases driven

theorem normalisedAs_of_setup {c : Config} {s : Setup} (admitted : c.setup = .ok s) :
    c.NormalisedAs s := by
  obtain ⟨minor, selects, lockMask, driven⟩ := setup_eq_ok admitted
  rcases drive_eq_ok driven with ⟨trigger, rate_admitted, _, made⟩ | ⟨trigger, _, _, _, made⟩
  · constructor
    · exact ⟨minor, selects, lockMask, by rw [trigger, Setup.trigger, made]⟩
    · intro _
      have positive : 0 < c.rate := Nat.lt_of_lt_of_le Nat.two_pos rate_admitted.1
      simp only [Setup.invertMask, Setup.rate?, Setup.width, Setup.gapMs, made,
        KeyMask.width, selects, Word.length_positions, polledGapMs,
        Rate.leastGapMs_eq_ceilDiv positive, defaultPolledGapMs, true_and]
    · intro interrupt
      rw [trigger] at interrupt
      cases interrupt
  · constructor
    · exact ⟨minor, selects, lockMask, by rw [trigger, Setup.trigger, made]⟩
    · intro polled
      rw [trigger] at polled
      cases polled
    · intro _
      simp only [Setup.invertMask, Setup.rate?, Setup.width, Setup.gapMs, made, and_self]

private theorem AgreesOnUsed.setup_eq {a b : Config} (agrees : a.AgreesOnUsed b) :
    a.setup = b.setup := by
  obtain ⟨⟨trigger, minor, mask, lockMask, gapMs⟩, polled, interrupt⟩ := agrees
  obtain ⟨t, _, _, _, _, _, _, _⟩ := a
  cases b
  dsimp only at trigger minor mask lockMask gapMs polled interrupt
  subst trigger minor mask lockMask gapMs
  -- The fields that may still differ are read on no path of this trigger.
  cases t with
  | polled =>
    obtain ⟨rfl, rfl⟩ := polled rfl
    rfl
  | interrupt =>
    cases interrupt rfl
    rfl

/-! ### Main result -/

/--
A configuration is admitted exactly when it satisfies every constraint, and rejected for the first
that it breaks. The setup has what was configured; a polled card without a quiet period gets one
that no rate is too slow for. What the trigger does not use makes no difference.
-/
theorem setup_checks_constraints (c : Config) :
    ((∃ s, c.setup = .ok s) ↔ ∀ entry ∈ c.constraints, entry.1) ∧
      (∀ fault, c.setup = .error fault ↔ FirstBroken fault c.constraints) ∧
      (∀ s, c.setup = .ok s → c.NormalisedAs s) ∧
      (c.trigger = .polled → c.gapMs = 0 → ∀ gapMs leastMs,
        c.setup ≠ .error (.shortGap gapMs leastMs)) ∧
      ∀ other, c.AgreesOnUsed other → c.setup = other.setup := by
  refine ⟨exists_setup_iff, fun _ => setup_eq_error_iff, fun _ => normalisedAs_of_setup, ?_,
    fun _ => AgreesOnUsed.setup_eq⟩
  intro polled unset gapMs leastMs failed
  -- The table has one constraint for gaps that are too short, and no gap satisfies it.
  obtain ⟨constraint, mem, broken⟩ := (setup_eq_error_iff.mp failed).exists_mem
  simp only [constraints, driveConstraints, polled, List.mem_cons, Prod.mk.injEq,
    reduceCtorEq, and_false, false_or, List.not_mem_nil, or_false] at mem
  exact broken (mem.1 ▸ Or.inl unset)

/-- A slow polled card whose default quiet period has to be stretched, with a width that it ignores;
an interrupt driven card whose width is one short of its scattered lines; and one that breaks two
bounds. -/
theorem setup_checks_constraints_cards :
    let slow : Config := { bt848Config with gapMs := 0, rate := 3, width := 99 }
    let narrow : Config := { cx88Config with width := 8, invertMask := 0x8000 }
    let twice : Config := { narrow with gapMs := 50 }
    (∃ s, slow.setup = .ok s ∧ s.gapMs = 667 ∧ s.width = 5 ∧ s.rate? = some 3) ∧
      slow.setup = { slow with width := 0 }.setup ∧ slow.setup ≠ .error (.shortGap 400 667) ∧
      narrow.setup = .error (.narrowWidth 8 9) ∧ twice.setup = .error (.badGap 50) := by
  intro slow narrow twice
  obtain ⟨-, -, normalised, unset, ignores⟩ := setup_checks_constraints slow
  have extent : narrow.mask.extent = 9 := by decide +kernel
  refine ⟨?_, ?_, unset rfl rfl 400 667, ?_, ?_⟩
  · have satisfied : ∀ entry ∈ slow.constraints, entry.1 := by
      simp [slow, constraints, driveConstraints, bt848Config]
    obtain ⟨s, admitted⟩ := (setup_checks_constraints slow).1.mpr satisfied
    obtain ⟨-, rate, width, gap⟩ := (normalised s admitted).polled rfl
    exact ⟨s, admitted, gap.trans (by decide), width.trans (by decide), rate⟩
  · exact ignores _ ⟨⟨rfl, rfl, rfl, rfl, rfl⟩, fun _ => ⟨rfl, rfl⟩, nofun⟩
  · refine ((setup_checks_constraints narrow).2.1 _).mpr ?_
    have covers : ¬ narrow.mask.extent ≤ narrow.width := by
      rw [extent]
      decide
    have needed : ConfigFault.narrowWidth 8 9 = .narrowWidth narrow.width narrow.mask.extent := by
      rw [extent]
    have minor : narrow.minor < 4 := by decide
    have nonempty : narrow.mask ≠ 0 := by decide
    have gap : 100 ≤ narrow.gapMs ∧ narrow.gapMs ≤ 1000 := by decide
    have width : 1 ≤ narrow.width ∧ narrow.width ≤ 16 := by decide
    refine (firstBroken_cons_of_pos minor).mpr ((firstBroken_cons_of_pos nonempty).mpr ?_)
    refine (firstBroken_cons_of_pos gap).mpr ((firstBroken_cons_of_pos width).mpr ?_)
    exact (firstBroken_cons_of_neg covers).mpr needed
  · refine ((setup_checks_constraints twice).2.1 _).mpr ?_
    have minor : twice.minor < 4 := by decide
    have nonempty : twice.mask ≠ 0 := by decide
    have gap : ¬ (100 ≤ twice.gapMs ∧ twice.gapMs ≤ 1000) := by decide
    refine (firstBroken_cons_of_pos minor).mpr ((firstBroken_cons_of_pos nonempty).mpr ?_)
    exact (firstBroken_cons_of_neg gap).mpr rfl

end Config

end RemoteKeys
