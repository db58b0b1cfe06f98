import RemoteKeys.Proofs.NextKey.Reads

/-!
# Sessions of receivers

In a session a receiver is asked for samples, at any times in any order, and told now and then to
forget. Its register matters by what it gives for each sample, and by nothing else: the calls of a
session and the readings that meet them are its turns, and the setup alone says what becomes of a
list of turns.

## Main statements

- `Receiver.events_eq`: a session on any register is what its setup makes of its turns.
- `Register.turns_tape`: every list of turns is that of a session on a tape.
-/

namespace RemoteKeys

/-- What a receiver may be told to do. -/
inductive Receiver.Call where
  | sample (now : Instant)
  | reset
  deriving DecidableEq

/-- A call with the reading that a sample meets; `none` is a failed read. -/
inductive Receiver.Turn where
  | sample (reading : Option Word) (now : Instant)
  | reset
  deriving DecidableEq

def Receiver.Turn.call : Turn → Call
  | sample _ now => .sample now
  | reset => .reset

def Receiver.Turn.reading? : Turn → Option (Option Word)
  | sample reading _ => some reading
  | reset => none

/-- A turn with its outcome, which a reset has not, and the hold-off before and after it. -/
structure Receiver.Event where
  turn : Turn
  outcome? : Option Outcome
  before : Holdoff
  after : Holdoff
  deriving DecidableEq

def Receiver.Event.call (e : Event) : Call := e.turn.call

open Receiver

/-! ### Turns -/

namespace Setup

/-- What becomes of a turn, and of the hold-off. -/
def respond (s : Setup) (h : Holdoff) : Turn → Option Outcome × Holdoff
  | .sample reading now => let (outcome, h) := s.observe h reading now; (some outcome, h)
  | .reset => (none, h.reset)

def events (s : Setup) (h : Holdoff) : List Turn → List Event
  | [] => []
  | turn :: later =>
    ⟨turn, (s.respond h turn).1, h, (s.respond h turn).2⟩ :: s.events (s.respond h turn).2 later

def afterTurns (s : Setup) (h : Holdoff) (turns : List Turn) : Holdoff :=
  turns.foldl (fun h turn => (s.respond h turn).2) h

theorem scope_gap_respond (s : Setup) (h : Holdoff) (turn : Turn) :
    (s.respond h turn).2.scope = h.scope ∧ (s.respond h turn).2.gap = h.gap := by
  cases turn with
  | sample reading now => exact s.observe_scope_gap h reading now
  | reset => exact ⟨rfl, rfl⟩

theorem scope_gap_afterTurns (s : Setup) (h : Holdoff) (turns : List Turn) :
    (s.afterTurns h turns).scope = h.scope ∧ (s.afterTurns h turns).gap = h.gap := by
  induction turns generalizing h with
  | nil => exact ⟨rfl, rfl⟩
  | cons turn later ih =>
    obtain ⟨scope, gap⟩ := s.scope_gap_respond h turn
    obtain ⟨later_scope, later_gap⟩ := ih (s.respond h turn).2
    exact ⟨later_scope.trans scope, later_gap.trans gap⟩

/-- Every event is what the setup makes of its turn, in a hold-off of the scope that there was at
first. -/
theorem event_of_mem_events {s : Setup} {h : Holdoff} {turns : List Turn} {e : Event}
    (mem : e ∈ s.events h turns) :
    e.outcome? = (s.respond e.before e.turn).1 ∧ e.after = (s.respond e.before e.turn).2 ∧
      e.before.scope = h.scope := by
  induction turns generalizing h with
  | nil => cases mem
  | cons turn later ih =>
    rcases List.mem_cons.mp mem with rfl | mem_later
    · exact ⟨rfl, rfl, rfl⟩
    · obtain ⟨outcome, after, scope⟩ := ih mem_later
      exact ⟨outcome, after, scope.trans (s.scope_gap_respond h turn).1⟩

end Setup

/-! ### Sessions -/

variable {ρ ε : Type} [Register ρ ε]

/-- The turns that the calls come to: each sample meets the next reading of the register. -/
def Register.turns (minor : Nat) (register : ρ) : List Call → List Turn
  | [] => []
  | .sample now :: later =>
    .sample (Register.read register minor).1.toOption now :: turns minor
      (Register.afterRead minor register) later
  | .reset :: later => .reset :: turns minor register later

namespace Receiver

/-- Does what is called for; a sample has an outcome. -/
def call (r : Receiver ρ) : Call → Option Outcome × Receiver ρ
  | .sample now => let (outcome, r) := r.sample now; (some outcome, r)
  | .reset => (none, r.reset)

/-- The turn that the call comes to. -/
def turn (r : Receiver ρ) : Call → Turn
  | .sample now => .sample (Register.read r.register r.setup.minor).1.toOption now
  | .reset => .reset

def event (r : Receiver ρ) (c : Call) : Event :=
  ⟨r.turn c, (r.call c).1, r.holdoff, (r.call c).2.holdoff⟩

/-- What becomes of each call in turn. -/
def events (r : Receiver ρ) : List Call → List Event
  | [] => []
  | c :: later => r.event c :: (r.call c).2.events later

def afterCalls (r : Receiver ρ) (calls : List Call) : Receiver ρ :=
  calls.foldl (fun r c => (r.call c).2) r

/-- The turns of the calls, with the readings that the register of the receiver gives. -/
def turns (r : Receiver ρ) (calls : List Call) : List Turn :=
  Register.turns r.setup.minor r.register calls

private theorem setup_call (r : Receiver ρ) (c : Call) : (r.call c).2.setup = r.setup := by
  cases c <;> rfl

private theorem call_eq (r : Receiver ρ) (c : Call) :
    (r.call c).1 = (r.setup.respond r.holdoff (r.turn c)).1 ∧
    (r.call c).2.holdoff = (r.setup.respond r.holdoff (r.turn c)).2 := by
  cases c <;> exact ⟨rfl, rfl⟩

private theorem turns_cons (r : Receiver ρ) (c : Call) (later : List Call) :
    r.turns (c :: later) = r.turn c :: (r.call c).2.turns later := by
  cases c <;> rfl

/-- A session on any register is what the setup makes of its turns. -/
theorem events_eq (r : Receiver ρ) (calls : List Call) :
    r.events calls = r.setup.events r.holdoff (r.turns calls) := by
  induction calls generalizing r with
  | nil => rfl
  | cons c later ih =>
    obtain ⟨outcome, holdoff⟩ := r.call_eq c
    rw [events, event, ih, turns_cons, Setup.events, setup_call, outcome, holdoff]

theorem holdoff_afterCalls (r : Receiver ρ) (calls : List Call) :
    (r.afterCalls calls).holdoff = r.setup.afterTurns r.holdoff (r.turns calls) := by
  induction calls generalizing r with
  | nil => rfl
  | cons c later ih =>
    rw [afterCalls, List.foldl_cons, ← afterCalls, ih, turns_cons, setup_call, (r.call_eq c).2]
    rfl

theorem setup_afterCalls (r : Receiver ρ) (calls : List Call) :
    (r.afterCalls calls).setup = r.setup := by
  induction calls generalizing r with
  | nil => rfl
  | cons c later ih => rw [afterCalls, List.foldl_cons, ← afterCalls, ih, setup_call]

end Receiver

/-- A tape of the readings serves every list of turns. -/
theorem Register.turns_tape (minor : Nat) (turns : List Turn) :
    Register.turns minor (⟨turns.filterMap Turn.reading?⟩ : Tape) (turns.map Turn.call) =
      turns := by
  induction turns with
  | nil => rfl
  | cons turn later ih =>
    cases turn with
    | sample reading now => cases reading <;> exact congrArg _ ih
    | reset => exact congrArg _ ih

end RemoteKeys
