import RemoteKeys.Proofs.Cards
import RemoteKeys.Proofs.Decode.Separation
import RemoteKeys.Proofs.Session.Deletion

/-!
# Forgetting is complete

A reset takes a receiver back to where it started. A locked reading does not: on a polled card it
leaves the old deadline where it was, which may still be to come, or be the end of the clock. But
the deadline is looked at only together with the last code, which is forgotten, and is a new one by
the time that there is a last code again.

## Main result

`Receiver.forgetting_complete`: from a reset on, and on a polled card from a locked reading on, a
session goes as it goes from the start; so a trace of a polled card can be cut at a locked reading.

## Proof strategy

Two hold-offs are `Alike` when they differ in the deadline of a forgotten code at most. Every turn
has the same outcome in both and leaves them alike again, whatever the times are.
-/

namespace RemoteKeys

open Receiver

/-- The hold-offs of a polled card differ in a deadline at most that belongs to no code. -/
structure Holdoff.Alike (h k : Holdoff) : Prop where
  scope : h.scope = .sameCode ∧ k.scope = .sameCode
  gap : h.gap = k.gap
  last : h.last = k.last
  deadline : h.last ≠ none → h.deadline = k.deadline

namespace Holdoff.Alike

variable {h k : Holdoff}

private theorem disturb (alike : h.Alike k) : h.disturb.Alike k.disturb := by
  rw [disturb_of_sameCode alike.scope.1, disturb_of_sameCode alike.scope.2]
  exact ⟨alike.scope, alike.gap, rfl, fun remembered => absurd rfl remembered⟩

private theorem reset (alike : h.Alike k) : h.reset.Alike k.reset :=
  ⟨alike.scope, alike.gap, rfl, fun _ => rfl⟩

private theorem report (alike : h.Alike k) (code : Code) (now : Instant) :
    (h.report code now).Alike (k.report code now) :=
  ⟨alike.scope, alike.gap, rfl, fun _ => congrArg now.later alike.gap⟩

/-- Where the last code is the one that is offered, both have its deadline. -/
theorem holds_iff (alike : h.Alike k) (code : Code) (now : Instant) :
    h.Holds code now ↔ k.Holds code now := by
  obtain ⟨⟨scope, scope'⟩, -, last, deadline⟩ := alike
  simp only [Holds, scope, scope', ← last, reduceCtorEq, false_or]
  refine and_congr_left fun remembered => ?_
  rw [deadline (by simp [remembered])]

private theorem offer (alike : h.Alike k) (code : Code) (now : Instant) :
    (h.offer code now).1 = (k.offer code now).1 ∧
    (h.offer code now).2.Alike (k.offer code now).2 := by
  by_cases holds : h.Holds code now
  · rw [offer_of_holds holds, offer_of_holds ((alike.holds_iff code now).mp holds)]
    exact ⟨rfl, alike⟩
  · rw [offer_of_not_holds holds, offer_of_not_holds (mt (alike.holds_iff code now).mpr holds)]
    exact ⟨rfl, alike.report code now⟩

variable (s : Setup)

private theorem observe (alike : h.Alike k) (reading : Option Word) (now : Instant) :
    (s.observe h reading now).1 = (s.observe k reading now).1 ∧
      (s.observe h reading now).2.Alike (s.observe k reading now).2 := by
  cases reading with
  | none => exact ⟨rfl, alike⟩
  | some raw =>
    cases decoded : s.decode raw with
    | none =>
      simp only [Setup.observe, decoded, true_and]
      exact alike.disturb
    | some code =>
      obtain ⟨reported, after⟩ := alike.offer code now
      simp only [Setup.observe, decoded, reported, true_and]
      exact after

private theorem respond (alike : h.Alike k) (turn : Turn) :
    (s.respond h turn).1 = (s.respond k turn).1 ∧
    (s.respond h turn).2.Alike (s.respond k turn).2 := by
  cases turn with
  | sample reading now =>
    obtain ⟨outcome, after⟩ := alike.observe s reading now
    exact ⟨congrArg some outcome, after⟩
  | reset => exact ⟨rfl, alike.reset⟩

/-- A session does not tell such hold-offs apart. -/
theorem map_outcome?_events (alike : h.Alike k) (turns : List Turn) :
    (s.events h turns).map Event.outcome? = (s.events k turns).map Event.outcome? := by
  induction turns generalizing h k with
  | nil => rfl
  | cons turn later ih =>
    obtain ⟨outcome, after⟩ := alike.respond s turn
    rw [Setup.events, Setup.events, List.map_cons, List.map_cons, outcome, ih after]

private theorem playFrom_eq (alike : h.Alike k) (t : Trace) : s.playFrom h t = s.playFrom k t := by
  induction t generalizing h k with
  | nil => rfl
  | cons x rest ih =>
    obtain ⟨outcome, after⟩ := alike.observe s x.reading (Instant.ofMillis x.timeMs)
    rw [Setup.playFrom, Setup.playFrom, outcome, ih after]

end Holdoff.Alike

namespace Setup

variable {s : Setup} {h : Holdoff}

private theorem reset_eq (scope : h.scope = s.holdoffScope) (gap : h.gap = s.gap) :
    h.reset = s.holdoff := by
  rw [Holdoff.reset, scope, gap]
  rfl

/-- Once a polled card has forgotten the last code, its hold-off is as good as new. -/
theorem alike_holdoff (polled : s.trigger = .polled) (scope : h.scope = s.holdoffScope)
    (gap : h.gap = s.gap) :
    h.disturb.Alike s.holdoff := by
  have sameCode := holdoffScope_polled polled
  rw [Holdoff.disturb_of_sameCode (scope.trans sameCode)]
  exact ⟨⟨scope.trans sameCode, sameCode⟩, gap, rfl, fun remembered => absurd rfl remembered⟩

/-- The turn that a sample of a trace is played back as. -/
def turnOf (x : Sample) : Turn := .sample x.reading (Instant.ofMillis x.timeMs)

private theorem playFrom_append (s : Setup) (h : Holdoff) (a b : Trace) :
    s.playFrom h (a ++ b) = s.playFrom h a ++ s.playFrom (s.afterTurns h (a.map turnOf)) b := by
  induction a generalizing h with
  | nil => rfl
  | cons x rest ih =>
    rw [List.cons_append, playFrom, playFrom, ih, List.cons_append]
    rfl

end Setup

/-! ### Main result -/

variable {ρ ε σ δ : Type} [Register ρ ε] [Register σ δ]

/--
A receiver on any register, after any session. After a reset, every further session goes exactly as
that of a receiver that has just been started, on a register that gives the same readings. On a
polled card this is so after a locked sample as well, although the old deadline stays: every further
session has the same outcomes. So a trace of a polled card with a locked reading in it is played
back as what is in front of that reading and what is behind it, each on its own.
-/
theorem Receiver.forgetting_complete (s : Setup) (register : ρ) (calls : List Call) :
    let r := (Receiver.start s register).afterCalls calls
    (∀ (later : List Call) (register' : σ), let fresh := Receiver.start s register'
      (fresh.turns later = r.reset.turns later → r.reset.events later = fresh.events later) ∧
      ∀ now, s.trigger = .polled → (r.sample now).1 = .locked →
        fresh.turns later = (r.sample now).2.turns later →
        (r.sample now).2.holdoff = { r.holdoff with last := none } ∧
        ((r.sample now).2.events later).map Event.outcome? =
          (fresh.events later).map Event.outcome?) ∧
    (s.trigger = .polled → ∀ (a b : Trace) (l : Sample) (raw : Word), l.reading = some raw →
      raw.Meets s.lockMask →
      Trace.play (a ++ [l] ++ b) s = a.play s ++ [(l.timeMs, .locked)] ++ b.play s) := by
  intro r
  have setup : r.setup = s := (Receiver.start s register).setup_afterCalls calls
  obtain ⟨scope, gap⟩ : r.holdoff.scope = s.holdoffScope ∧ r.holdoff.gap = s.gap := by
    rw [show r.holdoff = _ from (Receiver.start s register).holdoff_afterCalls calls]
    exact s.scope_gap_afterTurns s.holdoff _
  refine ⟨?_, ?_⟩
  · intro later register' fresh
    have started : fresh.events later = s.events s.holdoff (fresh.turns later) :=
      fresh.events_eq later
    refine ⟨fun same => ?_, fun now polled locked same => ?_⟩
    · have forgotten : r.reset.holdoff = s.holdoff := Setup.reset_eq scope gap
      have kept : r.reset.setup = s := setup
      rw [started, same, events_eq, kept, forgotten]
    · have disturbed : (r.sample now).2.holdoff = r.holdoff.disturb := Setup.observe_locked locked
      have kept : (r.sample now).2.setup = s := setup
      rw [started, same, events_eq, kept, disturbed]
      exact ⟨Holdoff.disturb_of_sameCode (scope.trans (Setup.holdoffScope_polled polled)),
        (Setup.alike_holdoff polled scope gap).map_outcome?_events s _⟩
  · intro polled a b l raw read lock
    obtain ⟨scope, gap⟩ := s.scope_gap_afterTurns s.holdoff (a.map Setup.turnOf)
    have locked : s.decode raw = none := Setup.decode_of_meets lock
    have alike := Setup.alike_holdoff polled scope gap
    rw [Trace.play_eq_playFrom, Trace.play_eq_playFrom, Trace.play_eq_playFrom, List.append_assoc,
      Setup.playFrom_append, List.singleton_append, Setup.playFrom, read]
    simp only [Setup.observe, locked]
    rw [alike.playFrom_eq s b, List.append_assoc, List.singleton_append]

/--
A key that was reported at the end of the clock, so that its deadline never passes, and is held down
over a locked reading and over a reset; and the trace of a held key with a locked reading in it.
-/
theorem forgetting_complete_bt848 :
    let latch : Latch :=
      { word := 0x1500, queue := [.ok 0x1500, .ok 0x9500, .ok 0x1500, .error .queued] }
    let r := (Receiver.start bt848 latch).afterCalls [.sample (.ofTicks lastTick)]
    let locked := r.sample (.ofMillis 1000)
    let later : List Call :=
      [.sample (.ofMillis 1200), .sample (.ofMillis 1100), .reset, .sample (.ofMillis 1300)]
    let fresh := Receiver.start bt848 (⟨[some 0x1500, none, some 0x1500]⟩ : Tape)
    let reopened := Receiver.start bt848 (⟨[some 0x9500, some 0x1500, none]⟩ : Tape)
    let a : Trace := [⟨0, some 0x1500⟩]
    let b : Trace := [⟨200, some 0x1500⟩, ⟨300, some 0x1500⟩]
    (locked.1 = .locked ∧ locked.2.holdoff.deadline = .ofTicks lastTick ∧
      fresh.turns later = locked.2.turns later ∧
      (locked.2.events later).map Event.outcome? =
        [some (.key 21), some .unread, none, some (.key 21)] ∧
      (locked.2.events later).map Event.outcome? = (fresh.events later).map Event.outcome?) ∧
    (reopened.turns later = r.reset.turns later ∧ r.reset.events later = reopened.events later) ∧
    Trace.play (a ++ [⟨100, some 0x9500⟩] ++ b) bt848 =
      [(0, .key 21), (100, .locked), (200, .key 21), (300, .held 21)] ∧
    Trace.play (a ++ [⟨100, some 0x9500⟩] ++ b) bt848 = a.play bt848 ++ [(100, .locked)] ++
      b.play bt848 := by
  intro latch r locked later fresh reopened a b
  obtain ⟨sessions, traces⟩ :=
    Receiver.forgetting_complete (σ := Tape) bt848 latch [.sample (.ofTicks lastTick)]
  have caught : locked.1 = .locked := by decide +kernel
  have same : fresh.turns later = locked.2.turns later := by decide +kernel
  have same_reset : reopened.turns later = r.reset.turns later := by decide +kernel
  obtain ⟨-, after_locked⟩ := sessions later ⟨[some 0x1500, none, some 0x1500]⟩
  obtain ⟨after_reset, -⟩ := sessions later ⟨[some 0x9500, some 0x1500, none]⟩
  obtain ⟨-, outcomes⟩ := after_locked (.ofMillis 1000) (by decide) caught same
  refine ⟨⟨caught, by decide +kernel, same, by decide +kernel, outcomes⟩,
    ⟨same_reset, after_reset same_reset⟩, by decide +kernel, ?_⟩
  exact traces (by decide) a b ⟨100, some 0x9500⟩ 0x9500 rfl (by decide)

end RemoteKeys
