import RemoteKeys.Proofs.Cards
import RemoteKeys.Proofs.Session.Turns

/-!
# Samples that leave no trace

A failed read leaves the hold-off alone, and so does a code that is held back; on an interrupt
driven card a locked reading does as well. Such samples might as well not have been taken: a session
without any of them, and without the readings that they met, goes as it went with them.

## Main result

`Receiver.traceless_samples_deleted`: what each kind of sample does to the hold-off, and the session
that is left when samples are deleted that did nothing.

## Proof strategy

Which samples leave no trace depends on the session itself. But before a sample that is deleted both
sessions have the same hold-off, and after it too, since it did nothing; so they go in step, by
induction over the turns.
-/

namespace RemoteKeys

open Receiver

/-- The second list is what is left of the first one when some elements with the property are
deleted. -/
inductive Thinned {α : Type} (spare : α → Prop) : List α → List α → Prop where
  | nil : Thinned spare [] []
  | keep {a : α} {all kept : List α} : Thinned spare all kept → Thinned spare (a :: all) (a :: kept)
  | delete {a : α} {all kept : List α} : spare a → Thinned spare all kept →
      Thinned spare (a :: all) kept

private theorem thinned_filter {α : Type} {spare : α → Prop} {keep : α → Bool} {all : List α}
    (others : ∀ a ∈ all, keep a = false → spare a) : Thinned spare all (all.filter keep) := by
  induction all with
  | nil => exact .nil
  | cons a rest ih =>
    obtain ⟨first, later⟩ := List.forall_mem_cons.mp others
    cases kept : keep a with
    | true =>
      rw [List.filter_cons_of_pos kept]
      exact .keep (ih later)
    | false =>
      rw [List.filter_cons_of_neg (by simp [kept])]
      exact .delete (first kept) (ih later)

/-- A sample with this outcome does nothing to the hold-off of a card with that trigger. -/
def Outcome.LeavesNoTrace (trigger : Trigger) : Outcome → Prop
  | key _ => False
  | held _ | unread => True
  | locked => trigger = .interrupt

/-- The event is a sample that does nothing to the hold-off. -/
def Receiver.Event.LeavesNoTrace (trigger : Trigger) (e : Event) : Prop :=
  ∃ outcome, e.outcome? = some outcome ∧ outcome.LeavesNoTrace trigger

namespace Setup

variable {s : Setup} {h : Holdoff}

/-! ### One sample -/

private theorem observe_of_leavesNoTrace {reading : Option Word} {now : Instant}
    (scope : h.scope = s.holdoffScope)
    (traceless : (s.observe h reading now).1.LeavesNoTrace s.trigger) :
    (s.observe h reading now).2 = h := by
  cases reading with
  | none => rfl
  | some raw =>
    cases decoded : s.decode raw with
    | none =>
      simp only [observe, decoded] at traceless ⊢
      exact Holdoff.disturb_of_everyCode (scope.trans (holdoffScope_interrupt traceless))
    | some code =>
      by_cases holds : h.Holds code now
      · simp only [observe, decoded, Holdoff.offer_of_holds holds]
      · -- The code would be reported.
        simp only [observe, decoded, Holdoff.offer_of_not_holds holds] at traceless
        exact absurd traceless id

theorem observe_locked {reading : Option Word} {now : Instant}
    (locked : (s.observe h reading now).1 = .locked) : (s.observe h reading now).2 = h.disturb := by
  cases reading with
  | none => cases locked
  | some raw =>
    cases decoded : s.decode raw with
    | none => simp only [observe, decoded]
    | some code =>
      simp only [observe, decoded] at locked
      split at locked <;> cases locked

private theorem respond_of_leavesNoTrace {turn : Turn} {outcome : Outcome}
    (scope : h.scope = s.holdoffScope) (responded : (s.respond h turn).1 = some outcome)
    (traceless : outcome.LeavesNoTrace s.trigger) :
    (s.respond h turn).2 = h := by
  cases turn with
  | sample reading now =>
    cases responded
    exact observe_of_leavesNoTrace scope traceless
  | reset => cases responded

private theorem respond_locked {turn : Turn} (responded : (s.respond h turn).1 = some .locked) :
    (s.respond h turn).2 = h.disturb := by
  cases turn with
  | sample reading now => exact observe_locked (Option.some.inj responded)
  | reset => cases responded

/-! ### A whole session -/

/-- The turns that are left meet the hold-offs that they met before. -/
theorem events_of_thinned {turns : List Turn} {kept : List Event} (scope : h.scope = s.holdoffScope)
    (thinned : Thinned (·.LeavesNoTrace s.trigger) (s.events h turns) kept) :
    s.events h (kept.map Event.turn) = kept ∧ s.afterTurns h (kept.map Event.turn) =
      s.afterTurns h turns := by
  induction turns generalizing h kept with
  | nil =>
    cases thinned
    exact ⟨rfl, rfl⟩
  | cons turn later ih =>
    have next_scope := (s.scope_gap_respond h turn).1.trans scope
    cases thinned with
    | keep rest =>
      obtain ⟨events, after⟩ := ih next_scope rest
      exact ⟨congrArg _ events, after⟩
    | delete traceless rest =>
      -- Nothing happened, so that the sessions have the same hold-off from here on too.
      obtain ⟨outcome, responded, nothing⟩ := traceless
      have same := respond_of_leavesNoTrace scope responded nothing
      rw [same] at rest
      obtain ⟨events, after⟩ := ih scope rest
      refine ⟨events, after.trans ?_⟩
      rw [afterTurns, afterTurns, List.foldl_cons, same]

end Setup

/-! ### Main result -/

variable {ρ ε σ δ : Type} [Register ρ ε] [Register σ δ]

/--
A session of a receiver on any register. A sample that could not be read or was held back leaves the
hold-off as it was, and so does a locked one on an interrupt driven card; a locked one on a polled
card makes it forget the code that was reported last, and nothing else. When some of the samples
that leave the hold-off alone are deleted from the session, a register that gives the other samples
the readings that they met before leads to the same outcomes and hold-offs, and the session ends in
the same hold-off.
-/
theorem Receiver.traceless_samples_deleted (s : Setup) (register : ρ) (calls : List Call) :
    let r := Receiver.start s register
    (∀ e ∈ r.events calls, ∀ outcome, e.outcome? = some outcome →
      (outcome.LeavesNoTrace s.trigger → e.after = e.before) ∧
      (s.trigger = .polled → outcome = .locked → e.after = { e.before with last := none })) ∧
    ∀ kept, Thinned (·.LeavesNoTrace s.trigger) (r.events calls) kept →
      ∀ register' : σ, Register.turns s.minor register' (kept.map Event.call) =
        kept.map Event.turn →
        let again := Receiver.start s register'
        again.events (kept.map Event.call) = kept ∧
          (again.afterCalls (kept.map Event.call)).holdoff = (r.afterCalls calls).holdoff := by
  intro r
  have started : r.events calls = s.events s.holdoff (r.turns calls) := r.events_eq calls
  refine ⟨?_, ?_⟩
  · intro e mem outcome has
    rw [started] at mem
    obtain ⟨responded, after, scope⟩ := Setup.event_of_mem_events mem
    rw [has] at responded
    rw [after]
    refine ⟨fun traceless => Setup.respond_of_leavesNoTrace scope responded.symm traceless, ?_⟩
    rintro polled rfl
    have sameCode := scope.trans (Setup.holdoffScope_polled polled)
    rw [Setup.respond_locked responded.symm, Holdoff.disturb_of_sameCode sameCode]
  · intro kept thinned register' gives again
    rw [started] at thinned
    obtain ⟨events, after⟩ := Setup.events_of_thinned rfl thinned
    have turns : again.turns (kept.map Event.call) = kept.map Event.turn := gives
    rw [events_eq, holdoff_afterCalls, holdoff_afterCalls, turns]
    exact ⟨events, after⟩

/--
Two keys within a quiet period, among a failed read and a locked reading, and a time that goes back
behind them. Of the four samples that leave no trace three are deleted.
-/
theorem traceless_samples_deleted_cx88 :
    let latch : Latch :=
      { word := 0x8000, queue := [.ok 0x8000, .error .queued, .ok 0x88000, .ok 0x88001,
        .ok 0x88000] }
    let r := Receiver.start cx88 latch
    let calls : List Call := [.sample (.ofMillis 100), .sample (.ofMillis 200),
      .sample (.ofMillis 300), .sample (.ofMillis 350), .sample (.ofMillis 500),
      .sample (.ofMillis 450), .reset, .sample (.ofMillis 460)]
    let kept := (r.events calls).filter fun e =>
      e.outcome? ≠ some .unread ∧ e.outcome? ≠ some .locked ∧ e.outcome? ≠ some (.held 1)
    let again := Receiver.start cx88 (⟨(kept.map Event.turn).filterMap Turn.reading?⟩ : Tape)
    (r.events calls).map Event.outcome? = [some (.key 1), some .unread, some (.held 17),
      some .locked, some (.key 17), some (.held 1), none, some (.key 1)] ∧
    kept.map Event.call = [.sample (.ofMillis 100), .sample (.ofMillis 300),
      .sample (.ofMillis 500), .reset, .sample (.ofMillis 460)] ∧
    Thinned (·.LeavesNoTrace .interrupt) (r.events calls) kept ∧
    again.events (kept.map Event.call) = kept ∧
    (again.afterCalls (kept.map Event.call)).holdoff = (r.afterCalls calls).holdoff := by
  intro latch r calls kept again
  have outcomes : (r.events calls).map Event.outcome? = [some (.key 1), some .unread,
    some (.held 17), some .locked,
      some (.key 17), some (.held 1), none, some (.key 1)] := by decide +kernel
  have thinned : Thinned (·.LeavesNoTrace cx88.trigger) (r.events calls) kept := by
    refine thinned_filter fun e _ deleted => ?_
    have traceless : e.outcome? = some .unread ∨ e.outcome? = some .locked ∨
        e.outcome? = some (.held 1) := by
      simp only [decide_eq_false_iff_not] at deleted
      tauto
    rcases traceless with unread | locked | held
    · exact ⟨_, unread, trivial⟩
    · exact ⟨_, locked, rfl⟩
    · exact ⟨_, held, trivial⟩
  have gives := Register.turns_tape cx88.minor (kept.map Event.turn)
  rw [List.map_map] at gives
  obtain ⟨-, deleted⟩ := Receiver.traceless_samples_deleted (σ := Tape) cx88 latch calls
  obtain ⟨events, after⟩ := deleted kept thinned _ gives
  exact ⟨outcomes, by decide +kernel, thinned, events, after⟩

end RemoteKeys
