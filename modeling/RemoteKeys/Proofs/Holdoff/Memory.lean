import Mathlib.Data.List.Induction
import RemoteKeys.Holdoff

/-!
# What a hold-off remembers

A hold-off keeps a code and a deadline. Codes are offered in any order and at any times, the lines
are disturbed and the hold-off is reset in between, and yet both come from a single event: the last
report since the last reset. The deadline is its own, and stays. The code is its own too, unless the
lines were disturbed behind it where only the same code is held back.

## Main result

`Holdoff.memory_of_history`: the memory of a hold-off, and with it the next answer, from the answers
that it gave.

## Proof strategy

An event behind a history either is the last report itself, or makes an end of every report (a
reset), or leaves the last report what it was (`lastReport_concat_iff`). In each of the three cases
the hold-off goes on to remember what its history says (`Remembers`), and a history is built up
event by event.
-/

namespace RemoteKeys.Holdoff

/-! ### Histories -/

/-- An event with its answer; only an offer has one. -/
abbrev Answered := Event × Option Bool

/-- The events with their answers, in order. -/
def answers (h : Holdoff) (events : List Event) : List Answered :=
  events.zip ((h.run events).map Prod.fst)

/-- The last report since the last reset: the code, its time, and what came behind it. -/
structure LastReport (history : List Answered) (code : Code) (since : Instant)
    (later : List Answered) : Prop where
  reported : (.offer code since, some true) :: later <:+ history
  unreported_later : ∀ entry ∈ later, entry.2 ≠ some true
  no_reset_later : ∀ entry ∈ later, entry.1 ≠ .reset

/-- Something was reported since the last reset. -/
def HasReport (history : List Answered) : Prop :=
  ∃ code since later, LastReport history code since later

/-- What is kept of the code of a report, after what came behind it. -/
def keptCode (scope : HoldoffScope) (code : Code) (later : List Answered) : Option Code :=
  if scope = .everyCode ∨ .disturb ∉ later.map Prod.fst then some code else none

/-- The hold-off has what the last report since the last reset left it, and nothing where there was
none. -/
structure Remembers (h : Holdoff) (history : List Answered) : Prop where
  deadline {code since later} : LastReport history code since later → h.deadline = since.later h.gap
  last {code since later} : LastReport history code since later →
    h.last = keptCode h.scope code later
  no_deadline : ¬ HasReport history → h.deadline = Instant.zero
  no_last : ¬ HasReport history → h.last = none

private theorem after_concat (h : Holdoff) (past : List Event) (e : Event) :
    h.after (past ++ [e]) = ((h.after past).step e).2 := by
  rw [after, List.foldl_append, List.foldl_cons, List.foldl_nil, ← after]

private theorem answers_concat (h : Holdoff) (past : List Event) (e : Event) :
    h.answers (past ++ [e]) = h.answers past ++ [(e, ((h.after past).step e).1)] := by
  induction past generalizing h with
  | nil => rfl
  | cons first past ih => exact congrArg _ (ih (h.step first).2)

/-! ### The last report, event by event -/

variable {history : List Answered} {entry : Answered} {code : Code} {since : Instant}
  {later : List Answered}

private theorem not_hasReport_nil : ¬ HasReport [] := by
  rintro ⟨code, since, later, ⟨reported, -, -⟩⟩
  cases List.suffix_nil.mp reported

private theorem lastReport_concat_iff : LastReport (history ++ [entry]) code since later ↔
    (entry = (.offer code since, some true) ∧ later = []) ∨
      (entry.2 ≠ some true ∧ entry.1 ≠ .reset ∧
        ∃ inner, later = inner ++ [entry] ∧ LastReport history code since inner) := by
  constructor
  · rintro ⟨reported, unreported, kept⟩
    obtain none_there | ⟨front, cut, inside⟩ := List.suffix_concat_iff.mp reported
    · cases none_there
    · -- The entry is the report itself, or stands behind it.
      obtain ⟨rfl, last⟩ | ⟨inner, rfl, rfl⟩ := List.cons_eq_append_iff.mp cut
      · obtain ⟨rfl, rfl⟩ := List.cons.inj last
        exact .inl ⟨rfl, rfl⟩
      · rw [List.forall_mem_append, List.forall_mem_singleton] at unreported kept
        exact .inr ⟨unreported.2, kept.2, inner, rfl, inside, unreported.1, kept.1⟩
  · rintro (⟨rfl, rfl⟩ | ⟨unreported, kept, inner, rfl, ⟨inside, unreported_inner, kept_inner⟩⟩)
    · exact ⟨List.suffix_append .., nofun, nofun⟩
    · refine ⟨List.suffix_concat_iff.mpr (.inr ⟨_, rfl, inside⟩), ?_, ?_⟩
      · rw [List.forall_mem_append, List.forall_mem_singleton]
        exact ⟨unreported_inner, unreported⟩
      · rw [List.forall_mem_append, List.forall_mem_singleton]
        exact ⟨kept_inner, kept⟩

private theorem hasReport_concat_iff (unreported : entry.2 ≠ some true) (kept : entry.1 ≠ .reset) :
    HasReport (history ++ [entry]) ↔ HasReport history := by
  constructor
  · rintro ⟨code, since, later, last⟩
    obtain ⟨rfl, -⟩ | ⟨-, -, inner, -, inside⟩ := lastReport_concat_iff.mp last
    · exact absurd rfl unreported
    · exact ⟨code, since, inner, inside⟩
  · rintro ⟨code, since, later, last⟩
    exact ⟨code, since, later ++ [entry],
      lastReport_concat_iff.mpr (.inr ⟨unreported, kept, later, rfl, last⟩)⟩

private theorem not_hasReport_concat_reset (history : List Answered) :
    ¬ HasReport (history ++ [(.reset, none)]) := by
  rintro ⟨code, since, later, last⟩
  obtain ⟨same, -⟩ | ⟨-, kept, -⟩ := lastReport_concat_iff.mp last
  · cases same
  · exact kept rfl

private theorem keptCode_concat (scope : HoldoffScope) (code : Code) (later : List Answered)
    (entry : Answered) :
    keptCode scope code (later ++ [entry]) =
      if scope = .everyCode ∨ entry.1 ≠ .disturb then keptCode scope code later else none := by
  have disturbed : .disturb ∈ (later ++ [entry]).map Prod.fst ↔
      .disturb ∈ later.map Prod.fst ∨ .disturb = entry.1 := by
    rw [List.map_append, List.mem_append, List.map_singleton, List.mem_singleton]
  simp only [keptCode, disturbed]
  grind

/-! ### What an event leaves -/

namespace Remembers

variable {h : Holdoff}

private theorem fresh (scope : HoldoffScope) (gap : Nat) :
    (Holdoff.fresh scope gap).Remembers [] where
  deadline last := absurd ⟨_, _, _, last⟩ not_hasReport_nil
  last last := absurd ⟨_, _, _, last⟩ not_hasReport_nil
  no_deadline _ := rfl
  no_last _ := rfl

private theorem report (h : Holdoff) (history : List Answered) (code : Code) (now : Instant) :
    (h.report code now).Remembers (history ++ [(.offer code now, some true)]) := by
  have there : HasReport (history ++ [(.offer code now, some true)]) :=
    ⟨code, now, [], lastReport_concat_iff.mpr (.inl ⟨rfl, rfl⟩)⟩
  have this_one {other since later}
      (last : LastReport (history ++ [(.offer code now, some true)]) other since later) :
      other = code ∧ since = now ∧ later = [] := by
    obtain ⟨same, rfl⟩ | ⟨unreported, -⟩ := lastReport_concat_iff.mp last
    · cases same
      exact ⟨rfl, rfl, rfl⟩
    · exact absurd rfl unreported
  constructor
  case deadline =>
    intro _ _ _ last
    obtain ⟨rfl, rfl, rfl⟩ := this_one last
    rfl
  case last =>
    intro _ _ _ last
    obtain ⟨rfl, rfl, rfl⟩ := this_one last
    exact (if_pos (.inr List.not_mem_nil)).symm
  case no_deadline | no_last => exact absurd there

private theorem reset (h : Holdoff) (history : List Answered) :
    h.reset.Remembers (history ++ [(.reset, none)]) where
  deadline last := absurd ⟨_, _, _, last⟩ (not_hasReport_concat_reset history)
  last last := absurd ⟨_, _, _, last⟩ (not_hasReport_concat_reset history)
  no_deadline _ := rfl
  no_last _ := rfl

/-- The deadline stays where the last report does, and so does the code unless it is forgotten. -/
theorem concat (remembers : h.Remembers history) (unreported : entry.2 ≠ some true)
    (kept : entry.1 ≠ .reset) (last : Option Code)
    (forgets : last = if h.scope = .everyCode ∨ entry.1 ≠ .disturb then h.last else none) :
    { h with last }.Remembers (history ++ [entry]) := by
  have before {code since later} (report : LastReport (history ++ [entry]) code since later) :
      ∃ inner, later = inner ++ [entry] ∧ LastReport history code since inner := by
    obtain ⟨rfl, -⟩ | ⟨-, -, inner⟩ := lastReport_concat_iff.mp report
    · exact absurd rfl unreported
    · exact inner
  constructor
  case deadline =>
    intro _ _ _ report
    obtain ⟨inner, -, inside⟩ := before report
    exact remembers.deadline inside
  case last =>
    -- The code was kept up to the last event, which decides whether it still is.
    intro _ _ _ report
    obtain ⟨inner, rfl, inside⟩ := before report
    rw [keptCode_concat, ← remembers.last inside]
    exact forgets
  case no_deadline =>
    rw [hasReport_concat_iff unreported kept]
    exact remembers.no_deadline
  case no_last =>
    intro none_there
    rw [hasReport_concat_iff unreported kept] at none_there
    rw [remembers.no_last none_there, ite_self] at forgets
    exact forgets

private theorem step (remembers : h.Remembers history) (e : Event) :
    (h.step e).2.Remembers (history ++ [(e, (h.step e).1)]) := by
  cases e with
  | offer code now =>
    by_cases holds : h.Holds code now
    · -- A code that is held back is entered in the history, and changes nothing else.
      rw [Holdoff.step, offer_of_holds holds]
      exact remembers.concat (by simp) (by simp) h.last (by simp)
    · rw [Holdoff.step, offer_of_not_holds holds]
      exact report h history code now
  | disturb =>
    cases scope : h.scope with
    | everyCode =>
      rw [Holdoff.step, disturb_of_everyCode scope]
      exact remembers.concat (by simp) (by simp) h.last (by simp [scope])
    | sameCode =>
      rw [Holdoff.step, disturb_of_sameCode scope]
      exact remembers.concat (by simp) (by simp) none (by simp [scope])
  | reset => exact reset h history

end Remembers

/-- By the end of any events, a new hold-off remembers what its history says. -/
theorem remembers_after (scope : HoldoffScope) (gap : Nat) (events : List Event) :
    ((fresh scope gap).after events).Remembers ((fresh scope gap).answers events) := by
  -- From the end: the last event meets the hold-off that the events in front of it left.
  induction events using List.reverseRecOn with
  | nil => exact .fresh scope gap
  | append_singleton past e ih =>
    rw [after_concat, answers_concat]
    exact ih.step e

/-! ### Main result -/

/--
A new hold-off of either scope, after any events. Its deadline is the end of the quiet period of the
last report since the last reset, or the last tick where the clock ends before that; its code is
that of the report, unless only the same code is held back and the lines were disturbed since. Where
nothing was reported there is neither. Scope and gap are those that it was made with, and the next
code is held back in front of the deadline only, and where only the same code is held back, only if
it is the one remembered.
-/
theorem memory_of_history (scope : HoldoffScope) (gap : Nat) (events : List Event) :
    let h := (fresh scope gap).after events
    let history := (fresh scope gap).answers events
    (∀ code since later, LastReport history code since later →
      h.deadline.ticks = min (since.ticks + gap) lastTick ∧
      h.last = if scope = .everyCode ∨ .disturb ∉ later.map Prod.fst then some code else none) ∧
    ((¬ ∃ code since later, LastReport history code since later) →
      h.deadline.ticks = 0 ∧ h.last = none) ∧
    h.scope = scope ∧ h.gap = gap ∧
    ∀ code now, (h.offer code now).1 = false ↔
      now.ticks < h.deadline.ticks ∧ (scope = .everyCode ∨ h.last = some code) := by
  intro h history
  have remembers : h.Remembers history := remembers_after scope gap events
  obtain ⟨same_scope, same_gap⟩ : h.scope = scope ∧ h.gap = gap :=
    scope_gap_after (fresh scope gap) events
  refine ⟨fun code since later last => ⟨?_, ?_⟩, fun none_there =>
    ⟨?_, remembers.no_last none_there⟩, same_scope, same_gap, fun code now => ?_⟩
  · rw [remembers.deadline last, Instant.ticks_later, same_gap]
  · rw [remembers.last last, same_scope, keptCode]
  · rw [remembers.no_deadline none_there, Instant.ticks_zero]
  · rw [offer_eq_false_iff, Holds, same_scope, Instant.lt_def]

/--
A key that was reported at tick 300, held back at an earlier tick and forgotten as the lines
changed: its deadline stays. A report in front of a reset is none.
-/
theorem memory_of_history_disturbed :
    let events : List Event :=
      [.offer 5 (.ofTicks 900), .reset, .offer 7 (.ofTicks 300), .offer 7 (.ofTicks 100), .disturb]
    let h := (fresh .sameCode 1000).after events
    let emptied := (fresh .everyCode 1000).after [.offer 5 (.ofTicks 900), .reset]
    LastReport ((fresh .sameCode 1000).answers events) 7 (.ofTicks 300)
        [(.offer 7 (.ofTicks 100), some false), (.disturb, none)] ∧
      h.deadline.ticks = 1300 ∧ h.last = none ∧ (h.offer 7 (.ofTicks 301)).1 ≠ false ∧
      (¬ ∃ code since later,
        LastReport ((fresh .everyCode 1000).answers [.offer 5 (.ofTicks 900),
          .reset]) code since later) ∧
      emptied.deadline.ticks = 0 ∧ emptied.last = none := by
  intro events h emptied
  have last : LastReport ((fresh .sameCode 1000).answers events) 7 (.ofTicks 300)
      [(.offer 7 (.ofTicks 100), some false), (.disturb, none)] :=
    ⟨by decide +kernel, by decide, by decide⟩
  have none_there :
      ¬ HasReport ((fresh .everyCode 1000).answers [.offer 5 (.ofTicks 900), .reset]) :=
    not_hasReport_concat_reset ((fresh .everyCode 1000).answers [.offer 5 (.ofTicks 900)])
  obtain ⟨kept, -, -, -, next⟩ := memory_of_history .sameCode 1000 events
  obtain ⟨-, nothing, -⟩ := memory_of_history .everyCode 1000 [.offer 5 (.ofTicks 900), .reset]
  obtain ⟨deadline, code⟩ := kept _ _ _ last
  have forgotten : h.last = none := code.trans (by decide)
  refine ⟨last, deadline.trans (by decide +kernel), forgotten, fun held => ?_, none_there,
    nothing none_there⟩
  have remembered := ((next _ _).mp held).2.resolve_left (by decide)
  exact absurd (forgotten.symm.trans remembered) (by decide)

end RemoteKeys.Holdoff
