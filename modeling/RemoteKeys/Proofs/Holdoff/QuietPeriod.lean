import RemoteKeys.Holdoff

/-!
# Quiet periods at the end of the clock

A report starts a quiet period, in which its code is held back whatever else is held back meanwhile.
The clock cannot show the end of a quiet period that is longer than the time it has left, and stays
at its last tick instead. That tick is no time before the end, so that the code is reported again
there.

## Main result

`Holdoff.quiet_until_clock_ends`: when a code that was reported is held back, and which quiet
periods are kept to the end.

## Proof strategy

Offers that are held back leave the hold-off as it is, so that the deadline of the report decides.
It is the end of the quiet period or the last tick, whichever comes first.
-/

namespace RemoteKeys.Holdoff

/-- The offers, one after the other. -/
def offerAll (h : Holdoff) (offers : List (Code × Instant)) : List (Option Bool × Holdoff) :=
  h.run (offers.map fun o => .offer o.1 o.2)

/-- What the offers leave. -/
def afterOffers (h : Holdoff) (offers : List (Code × Instant)) : Holdoff :=
  h.after (offers.map fun o => .offer o.1 o.2)

/-- Every one of the offers is held back. -/
def AllHeldBack (h : Holdoff) (offers : List (Code × Instant)) : Prop :=
  ∀ answer ∈ h.offerAll offers, answer.1 = some false

instance (h : Holdoff) (offers : List (Code × Instant)) : Decidable (h.AllHeldBack offers) :=
  inferInstanceAs (Decidable (∀ answer ∈ h.offerAll offers, answer.1 = some false))

/-- A code that was reported is held back until the gap is over. -/
def KeepsQuiet (h : Holdoff) (code : Code) (since : Instant) : Prop :=
  ∀ offers now, (h.offer code since).2.AllHeldBack offers → since ≤ now →
    now.ticks < since.ticks + h.gap →
    (((h.offer code since).2.afterOffers offers).offer code now).1 = false

private theorem gap_after (h : Holdoff) (events : List Event) : (h.after events).gap = h.gap :=
  (h.scope_gap_after events).2

private theorem eq_of_offer_eq_false {h : Holdoff} {code : Code} {now : Instant}
    (held : (h.offer code now).1 = false) :
    (h.offer code now).2 = h := by
  rw [offer_of_holds (offer_eq_false_iff.mp held)]

/-- Offers that are held back leave no trace. -/
theorem afterOffers_of_allHeldBack {h : Holdoff} {offers : List (Code × Instant)}
    (held : h.AllHeldBack offers) :
    h.afterOffers offers = h := by
  induction offers with
  | nil => rfl
  | cons o later ih =>
    obtain ⟨first, others⟩ := List.forall_mem_cons.mp held
    have same : (h.offer o.1 o.2).2 = h := eq_of_offer_eq_false (Option.some.inj first)
    have others_held : h.AllHeldBack later := by
      have behind : ∀ answer ∈ (h.offer o.1 o.2).2.offerAll later, answer.1 = some false := others
      rwa [same] at behind
    calc h.afterOffers (o :: later) = (h.offer o.1 o.2).2.afterOffers later := rfl
      _ = h.afterOffers later := by rw [same]
      _ = h := ih others_held

/-- Right behind its report, only the time decides about a code. -/
theorem offer_report_eq_false_iff (h : Holdoff) (code : Code) (since now : Instant) :
    ((h.report code since).offer code now).1 = false ↔
    now.ticks < min (since.ticks + h.gap) lastTick := by
  rw [offer_eq_false_iff, ← Instant.ticks_later, ← Instant.lt_def]
  exact and_iff_left (Or.inr rfl)

/--
A code that was reported, in whatever state, and any offers behind it that were held back. The code
is held back at just those times that are in front of the end of its quiet period and of the last
tick of the clock. So it is held back throughout where the clock can show the end of the quiet
period, and there alone: otherwise the last tick is in the quiet period, and the code is reported
there.
-/
theorem quiet_until_clock_ends (scope : HoldoffScope) (gap : Nat) (past : List Event) {code : Code}
    {since : Instant} (reported : (((fresh scope gap).after past).offer code since).1 = true) :
    let h := (fresh scope gap).after past
    (∀ offers now, (h.offer code since).2.AllHeldBack offers →
      ((((h.offer code since).2.afterOffers offers).offer code now).1 = false ↔
        now.ticks < min (since.ticks + gap) lastTick)) ∧
      (h.KeepsQuiet code since ↔ since.ticks + gap ≤ lastTick) := by
  intro h
  have same_gap : h.gap = gap := gap_after (fresh scope gap) past
  have free : ¬ h.Holds code since := by
    intro holds
    rw [show (fresh scope gap).after past = h from rfl, offer_of_holds holds] at reported
    cases reported
  have decided (offers : List (Code × Instant)) (now : Instant)
      (held : (h.offer code since).2.AllHeldBack offers) :
      (((h.offer code since).2.afterOffers offers).offer code now).1 = false ↔
        now.ticks < min (since.ticks + gap) lastTick := by
    rw [afterOffers_of_allHeldBack held, offer_of_not_holds free,
      offer_report_eq_false_iff, same_gap]
  have none_held : (h.offer code since).2.AllHeldBack [] := fun _ mem => nomatch mem
  refine ⟨decided, fun keeps => Nat.le_of_not_lt fun unshown => ?_,
    fun shown offers now held _ inside => ?_⟩
  · -- The quiet period reaches beyond the last tick, which is then one of its times.
    have last : (Instant.ofTicks lastTick).ticks = lastTick := Nat.min_self lastTick
    have reached : since ≤ Instant.ofTicks lastTick := last ▸ since.ticks_le
    have inside : (Instant.ofTicks lastTick).ticks < since.ticks + h.gap := by rwa [last, same_gap]
    have before := (decided [] _ none_held).mp (keeps [] _ none_held reached inside)
    rw [last] at before
    exact Nat.lt_irrefl _ (Nat.lt_of_lt_of_le before (Nat.min_le_right ..))
  · rw [same_gap] at inside
    exact (decided offers now held).mpr (Nat.lt_min.mpr ⟨inside, Nat.lt_of_lt_of_le inside shown⟩)

/-- The report is ten ticks in front of the end of the clock, and the quiet period a hundred ticks
long. -/
theorem quiet_until_clock_ends_late :
    let h := (fresh .sameCode 100).after [.offer 7 Instant.zero, .disturb]
    let since := Instant.ofTicks (lastTick - 10)
    let offers := [(7, Instant.ofTicks (lastTick - 5)), (7, Instant.zero)]
    (h.offer 7 since).1 = true ∧ (h.offer 7 since).2.AllHeldBack offers ∧
      (((h.offer 7 since).2.afterOffers offers).offer 7 (.ofTicks (lastTick - 1))).1 = false ∧
      ¬ h.KeepsQuiet 7 since := by
  intro h since offers
  have reported : (h.offer 7 since).1 = true := by decide +kernel
  have held : (h.offer 7 since).2.AllHeldBack offers := by decide +kernel
  obtain ⟨decided, keeps_iff⟩ :=
    quiet_until_clock_ends .sameCode 100 [.offer 7 Instant.zero, .disturb] reported
  exact ⟨reported, held, (decided offers _ held).mpr (by decide +kernel),
    mt keeps_iff.mp (by decide +kernel)⟩

/-- At the last tick of the clock a code is reported again at once, whatever the scope. -/
theorem not_keepsQuiet_last_tick :
    let last := Instant.ofTicks lastTick
    let bouncing := fresh .everyCode 1000
    let held := fresh .sameCode 1000
    ((bouncing.offer 1 last).1 = true ∧ ((bouncing.offer 1 last).2.offer 1 last).1 = true ∧
        ¬ bouncing.KeepsQuiet 1 last) ∧
      (held.offer 1 last).1 = true ∧ ((held.offer 1 last).2.offer 1 last).1 = true ∧
        ¬ held.KeepsQuiet 1 last := by
  intro last bouncing held
  have again : ((bouncing.offer 1 last).2.offer 1 last).1 = true := by decide +kernel
  have held_again : ((held.offer 1 last).2.offer 1 last).1 = true := by decide +kernel
  refine ⟨⟨by decide +kernel, again, fun keeps => ?_⟩,
    by decide +kernel, held_again, fun keeps => ?_⟩
  · have quiet := keeps [] last (by decide +kernel) (by decide +kernel) (by decide +kernel)
    exact absurd (quiet.symm.trans again) (by decide)
  · have quiet := keeps [] last (by decide +kernel) (by decide +kernel) (by decide +kernel)
    exact absurd (quiet.symm.trans held_again) (by decide)

end RemoteKeys.Holdoff
