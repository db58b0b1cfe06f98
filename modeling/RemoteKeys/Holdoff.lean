import RemoteKeys.Word
import RemoteKeys.Instant

/-!
# Hold-off

After a code is reported there is a quiet period. The contacts behind an interrupt driven card
bounce, so its quiet period holds back every code; a sampled card sees a held key again and again,
so its quiet period holds back only the code that was reported last.

A hold-off remembers the last reported code and the end of its quiet period. Holding a code back
changes neither, which makes the memory a function of what was reported.

## Main statements

- `Holdoff.offer_of_holds`: a code that is held back leaves no trace.
- `Holdoff.scope_gap_after`: what is held back, and for how long, never changes.
-/

namespace RemoteKeys

/-- Which codes a quiet period holds back. -/
inductive HoldoffScope where
  | everyCode
  /-- The code that was reported last. -/
  | sameCode
  deriving DecidableEq

/-- What is remembered of the codes that were reported. -/
structure Holdoff where
  scope : HoldoffScope
  gap : Nat
  /-- The last reported code, unless it was forgotten. -/
  last : Option Code
  deadline : Instant
  deriving DecidableEq

namespace Holdoff

/-- A hold-off before anything was reported. -/
def fresh (scope : HoldoffScope) (gap : Nat) : Holdoff :=
  { scope, gap, last := none, deadline := Instant.zero }

/-- The quiet period holds `code` back at time `now`. -/
def Holds (h : Holdoff) (code : Code) (now : Instant) : Prop :=
  now < h.deadline ∧ (h.scope = .everyCode ∨ h.last = some code)

instance (h : Holdoff) (code : Code) (now : Instant) : Decidable (h.Holds code now) :=
  inferInstanceAs (Decidable (_ ∧ _))

/-- A code was reported, and a quiet period starts. -/
def report (h : Holdoff) (code : Code) (now : Instant) : Holdoff :=
  { h with last := some code, deadline := now.later h.gap }

/-- Asks whether a code is to be reported, and takes note of it if it is. -/
def offer (h : Holdoff) (code : Code) (now : Instant) : Bool × Holdoff :=
  if h.Holds code now then (false, h) else (true, h.report code now)

/--
The lines were caught while they were changing. Where only the same code is held back, the last one
is forgotten, so that whatever the lines settle to is reported.
-/
def disturb (h : Holdoff) : Holdoff :=
  match h.scope with
  | .everyCode => h
  | .sameCode => { h with last := none }

def reset (h : Holdoff) : Holdoff := { h with last := none, deadline := Instant.zero }

inductive Event where
  | offer (code : Code) (now : Instant)
  | disturb
  | reset
  deriving DecidableEq

def step (h : Holdoff) : Event → Option Bool × Holdoff
  | .offer code now => let (reported, h) := h.offer code now; (some reported, h)
  | .disturb => (none, h.disturb)
  | .reset => (none, h.reset)

/-- The answer to each event in turn, with the memory that it leaves. -/
def run (h : Holdoff) : List Event → List (Option Bool × Holdoff)
  | [] => []
  | e :: rest => let after := h.step e; after :: run after.2 rest

def after (h : Holdoff) (events : List Event) : Holdoff := events.foldl (fun h e => (h.step e).2) h

theorem offer_of_holds {h : Holdoff} {code : Code} {now : Instant} (holds : h.Holds code now) :
    h.offer code now = (false, h) := by
  simp [offer, holds]

theorem offer_of_not_holds {h : Holdoff} {code : Code} {now : Instant} (free : ¬ h.Holds code now) :
    h.offer code now = (true, h.report code now) := by
  simp [offer, free]

theorem offer_eq_false_iff {h : Holdoff} {code : Code} {now : Instant} :
    (h.offer code now).1 = false ↔ h.Holds code now := by
  by_cases holds : h.Holds code now
  · simp [offer_of_holds holds, holds]
  · simp [offer_of_not_holds holds, holds]

theorem disturb_of_everyCode {h : Holdoff} (scope : h.scope = .everyCode) : h.disturb = h := by
  rw [disturb, scope]

theorem disturb_of_sameCode {h : Holdoff} (scope : h.scope = .sameCode) :
    h.disturb = { h with last := none } := by
  simp only [disturb, scope]

theorem step_scope_gap (h : Holdoff) (e : Event) :
    (h.step e).2.scope = h.scope ∧ (h.step e).2.gap = h.gap := by
  cases e with
  | offer code now => by_cases holds : h.Holds code now <;> simp [step, offer, holds, report]
  | disturb => cases scope : h.scope <;> simp [step, disturb, scope]
  | reset => simp [step, reset]

theorem scope_gap_after (h : Holdoff) (events : List Event) :
    (h.after events).scope = h.scope ∧ (h.after events).gap = h.gap := by
  induction events generalizing h with
  | nil => exact ⟨rfl, rfl⟩
  | cons e later ih =>
    obtain ⟨scope, gap⟩ := h.step_scope_gap e
    obtain ⟨later_scope, later_gap⟩ := ih (h.step e).2
    exact ⟨later_scope.trans scope, later_gap.trans gap⟩

end Holdoff

end RemoteKeys
