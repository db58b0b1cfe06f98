import Mathlib.Data.List.Forall2
import Mathlib.Data.List.Induction
import RemoteKeys.Trace
import RemoteKeys.Trace.Fault

/-!
# The pace of reports

Playing a trace back is a fold of `Setup.observe` over its samples: what the tape and the receiver
add is only that sample `i` meets reading `i`. What remains to be said is which codes the hold-off
lets through. A list of samples is `Paced` when its first code is reported, and every later one
exactly where the quiet period of the latest report before it is over.

## Main statements

- `Trace.play_eq_playFrom`: a play-back is the fold, so that the tape never ends early.
- `Setup.forall₂_playFrom`: every outcome is one that its own reading allows.
- `Tracks.offer`: the step that keeps a hold-off in tune with a paced list.
- `Paced.reports_pairwise`: any two reports of a paced list are a quiet period apart.
-/

namespace RemoteKeys

/-- The code that a reading spelled, whether it was reported or held back. -/
def Outcome.code? : Outcome → Option Code
  | key code | held code => some code
  | locked | unread => none

/-- The code was reported. -/
def Outcome.IsKey (outcome : Outcome) : Prop := ∃ code, outcome = .key code

/-- The code was held back. -/
def Outcome.IsHeld (outcome : Outcome) : Prop := ∃ code, outcome = .held code

/-- What a reading allows to become of it, the quiet period apart. -/
def Setup.Accounts (s : Setup) : Option Word → Outcome → Prop
  | none, outcome => outcome = .unread
  | some raw, outcome =>
    if raw.Meets s.lockMask then outcome = .locked
    else ∃ code, s.decode raw = some code ∧ (outcome = .key code ∨ outcome = .held code)

/-- What becomes of each sample of a trace that meets a hold-off. -/
def Setup.playFrom (s : Setup) (h : Holdoff) : Trace → List (Nat × Outcome)
  | [] => []
  | x :: rest =>
    (x.timeMs, (s.observe h x.reading (Instant.ofMillis x.timeMs)).1) ::
      s.playFrom (s.observe h x.reading (Instant.ofMillis x.timeMs)).2 rest

/-! ### Playing back is a fold -/

theorem Receiver.sample_tape {r : Receiver Tape} {reading : Option Word} {rest : List (Option Word)}
    (next : r.register.readings = reading :: rest) (now : Instant) :
    r.sample now = ((r.setup.observe r.holdoff reading now).1,
      ⟨r.setup, (r.setup.observe r.holdoff reading now).2, ⟨rest⟩⟩) := by
  cases reading <;> simp [sample, Register.read, Tape.read, next, Except.toOption]

private theorem zip_sampleAll (s : Setup) (h : Holdoff) (t : Trace) :
    (t.map Sample.timeMs).zip ((⟨s, h, t.tape⟩ : Receiver Tape).sampleAll t.times).1 =
      s.playFrom h t := by
  induction t generalizing h with
  | nil => rfl
  | cons x rest ih =>
    -- The tape gives the sample's own reading, and is then the tape of the other samples.
    have read :
        ((⟨s, h, Trace.tape (x :: rest)⟩ : Receiver Tape).sample (Instant.ofMillis x.timeMs)) =
        ((s.observe h x.reading (Instant.ofMillis x.timeMs)).1,
          ⟨s, (s.observe h x.reading (Instant.ofMillis x.timeMs)).2, Trace.tape rest⟩) :=
      Receiver.sample_tape rfl _
    have tail := ih (s.observe h x.reading (Instant.ofMillis x.timeMs)).2
    simp only [Trace.times, List.map_cons, Receiver.sampleAll, Setup.playFrom] at read tail ⊢
    rw [read, List.zip_cons_cons, tail]

theorem Trace.play_eq_playFrom (t : Trace) (s : Setup) : t.play s = s.playFrom s.holdoff t :=
  zip_sampleAll s s.holdoff t

theorem Setup.accounts_observe (s : Setup) (h : Holdoff) (reading : Option Word) (now : Instant) :
    s.Accounts reading (s.observe h reading now).1 := by
  cases reading with
  | none => rfl
  | some raw =>
    by_cases lock : raw.Meets s.lockMask
    · simp [Accounts, observe, decode, lock]
    · -- Without a lock line, every reading spells a code.
      obtain ⟨code, decoded⟩ : ∃ code, s.decode raw = some code := by
        cases trigger : s.trigger <;> simp [decode, lock, trigger]
      simp only [Accounts, observe, lock, decoded, if_false]
      exact ⟨code, rfl, by split <;> simp⟩

theorem Setup.forall₂_playFrom (s : Setup) (h : Holdoff) (t : Trace) :
    List.Forall₂ (fun x p => s.Accounts x.reading p.2) t (s.playFrom h t) := by
  induction t generalizing h with
  | nil => exact .nil
  | cons x rest ih => exact .cons (s.accounts_observe h x.reading _) (ih _)

/-! ### Paced lists -/

/-- The times of the reports, in milliseconds. -/
def reports (played : List (Nat × Outcome)) : List Nat :=
  (played.filter fun p => p.2.key?.isSome).map Prod.fst

/--
The first sample is reported, and each later one is held back exactly before the quiet period of
the latest report is over.
-/
structure Paced (gapMs : Nat) (played : List (Nat × Outcome)) : Prop where
  first : ∀ p rest, played = p :: rest → p.2.IsKey
  later : ∀ before p rest, before ≠ [] → played = before ++ p :: rest →
    ∃ latest, (reports before).getLast? = some latest ∧
      (p.2.IsHeld ↔ p.1 < latest + gapMs) ∧ (p.2.IsKey ↔ latest + gapMs ≤ p.1)

@[simp] theorem Outcome.isKey_key (code : Code) : (Outcome.key code).IsKey := ⟨code, rfl⟩

@[simp] theorem Outcome.isHeld_held (code : Code) : (Outcome.held code).IsHeld := ⟨code, rfl⟩

@[simp] theorem Outcome.not_isKey_held (code : Code) : ¬ (Outcome.held code).IsKey := by
  rintro ⟨_, ⟨⟩⟩

@[simp] theorem Outcome.not_isHeld_key (code : Code) : ¬ (Outcome.key code).IsHeld := by
  rintro ⟨_, ⟨⟩⟩

private theorem Outcome.isKey_iff {outcome : Outcome} :
    outcome.IsKey ↔ outcome.key?.isSome = true := by
  cases outcome <;> simp [IsKey, key?]

theorem reports_append (a b : List (Nat × Outcome)) :
    reports (a ++ b) = reports a ++ reports b := by
  simp [reports]

theorem reports_singleton (p : Nat × Outcome) :
    reports [p] = if p.2.key?.isSome then [p.1] else [] := by
  cases key : p.2.key? <;> simp [reports, key]

@[simp] theorem reports_key (timeMs : Nat) (code : Code) :
    reports [(timeMs, .key code)] = [timeMs] := rfl

@[simp] theorem reports_held (timeMs : Nat) (code : Code) :
    reports [(timeMs, .held code)] = [] := rfl

namespace Paced

variable {gapMs : Nat} {played : List (Nat × Outcome)}

theorem nil : Paced gapMs [] :=
  ⟨by rintro _ _ ⟨⟩, fun before _ _ _ empty => by simp at empty⟩

private theorem snoc {p : Nat × Outcome} (paced : Paced gapMs played)
    (first : played = [] → p.2.IsKey)
    (later : played ≠ [] → ∃ latest, (reports played).getLast? = some latest ∧
      (p.2.IsHeld ↔ p.1 < latest + gapMs) ∧ (p.2.IsKey ↔ latest + gapMs ≤ p.1)) :
    Paced gapMs (played ++ [p]) := by
  constructor
  · intro q rest split
    cases played with
    | nil =>
      obtain ⟨rfl, -⟩ := List.cons.inj split
      exact first rfl
    | cons head tail =>
      obtain ⟨rfl, -⟩ := List.cons.inj split
      exact paced.first _ tail rfl
  · intro before q rest nonempty split
    -- The list is cut at the new sample, or it was cut there before.
    rcases List.eq_nil_or_concat rest with rfl | ⟨rest, z, rfl⟩
    · obtain ⟨rfl, ends⟩ := List.append_inj' split rfl
      obtain ⟨rfl, -⟩ := List.cons.inj ends
      exact later nonempty
    · have shorter : played ++ [p] = (before ++ q :: rest) ++ [z] := by simpa using split
      obtain ⟨rfl, -⟩ := List.append_inj' shorter rfl
      exact paced.later before q rest nonempty rfl

private theorem of_append {rest : List (Nat × Outcome)} (paced : Paced gapMs (played ++ rest)) :
    Paced gapMs played := by
  constructor
  · rintro p tail rfl
    exact paced.first p (tail ++ rest) rfl
  · rintro before p tail nonempty rfl
    exact paced.later before p (tail ++ rest) nonempty (by simp)

private theorem exists_latest (paced : Paced gapMs played) (nonempty : played ≠ []) :
    ∃ latest, (reports played).getLast? = some latest := by
  cases played with
  | nil => contradiction
  | cons p rest =>
    obtain ⟨code, key⟩ := paced.first p rest rfl
    have some_report : reports (p :: rest) ≠ [] := by simp [reports, key, Outcome.key?]
    exact ⟨_, List.getLast?_eq_some_getLast some_report⟩

/-- Any two reports are a quiet period apart, in whatever order the times come. -/
theorem reports_pairwise (paced : Paced gapMs played) :
    (reports played).Pairwise fun earlier later => earlier + gapMs ≤ later := by
  induction played using List.reverseRecOn with
  | nil => simp [reports]
  | append_singleton before p ih =>
    have apart := ih paced.of_append
    rw [reports_append, reports_singleton, List.pairwise_append]
    refine ⟨apart, by split <;> simp, ?_⟩
    intro earlier mem timeMs reported
    obtain ⟨key, rfl⟩ : p.2.IsKey ∧ timeMs = p.1 := by
      simpa [Outcome.isKey_iff] using reported
    have nonempty : before ≠ [] := by rintro rfl; simp [reports] at mem
    obtain ⟨latest, last, -, due⟩ := paced.later before p [] nonempty rfl
    obtain ⟨front, split⟩ := List.getLast?_eq_some_iff.mp last
    -- Every other report lies before the latest one by a quiet period of its own.
    have upto : earlier ≤ latest := by
      rw [split] at mem apart
      rcases List.mem_append.mp mem with old | same
      · have := (List.pairwise_append.mp apart).2.2 earlier old latest (by simp)
        omega
      · exact Nat.le_of_eq (List.mem_singleton.mp same)
    have := due.mp key
    omega

end Paced

/-! ### The hold-off keeps the pace -/

/-- The clock does not end before a quiet period that starts at a time of a trace. -/
theorem Instant.ofMillis_lt_later_iff {timeMs latest gapMs : Nat}
    (within : timeMs ≤ Trace.timeLimitMs) (latest_within : latest ≤ Trace.timeLimitMs) :
    Instant.ofMillis timeMs < (Instant.ofMillis latest).later (gapMs * ticksPerMilli) ↔
      timeMs < latest + gapMs := by
  simp only [Instant.lt_def, Instant.ticks_ofMillis, Instant.ticks_later, lastTick, ticksPerMilli,
    Trace.timeLimitMs] at *
  omega

/-- The played samples keep the pace, and the hold-off's quiet period is that of their latest
report. -/
structure Tracks (h : Holdoff) (gapMs : Nat) (played : List (Nat × Outcome)) : Prop where
  paced : Paced gapMs played
  gap : h.gap = gapMs * ticksPerMilli
  deadline : ∀ latest, (reports played).getLast? = some latest →
    latest ≤ Trace.timeLimitMs ∧ h.deadline = (Instant.ofMillis latest).later h.gap

/--
A code is offered that the quiet period does not hold back if it is the first one, and that only the
end of the quiet period decides about if it is not. What becomes of it keeps the pace.
-/
theorem Tracks.offer {h : Holdoff} {gapMs timeMs : Nat} {played : List (Nat × Outcome)}
    (tracks : Tracks h gapMs played) (code : Code) (within : timeMs ≤ Trace.timeLimitMs)
    (first : played = [] → ¬ h.Holds code (Instant.ofMillis timeMs))
    (later : played ≠ [] →
      (h.Holds code (Instant.ofMillis timeMs) ↔ Instant.ofMillis timeMs < h.deadline)) :
    Tracks (h.offer code (Instant.ofMillis timeMs)).2 gapMs
      (played ++ [(timeMs, if (h.offer code (Instant.ofMillis timeMs)).1 then .key code
        else .held code)]) := by
  have due (nonempty : played ≠ []) : ∃ latest, (reports played).getLast? = some latest ∧
      (h.Holds code (Instant.ofMillis timeMs) ↔ timeMs < latest + gapMs) := by
    obtain ⟨latest, last⟩ := tracks.paced.exists_latest nonempty
    obtain ⟨latest_within, deadline⟩ := tracks.deadline latest last
    rw [later nonempty, deadline, tracks.gap]
    exact ⟨latest, last, Instant.ofMillis_lt_later_iff within latest_within⟩
  by_cases holds : h.Holds code (Instant.ofMillis timeMs)
  · -- The code is held back: neither the latest report nor the deadline moves.
    rw [Holdoff.offer_of_holds holds]
    refine ⟨tracks.paced.snoc (fun empty => absurd holds (first empty)) ?_, tracks.gap, ?_⟩
    · intro nonempty
      obtain ⟨latest, last, ends⟩ := due nonempty
      exact ⟨latest, last, by simpa using ends.mp holds, by simpa using ends.mp holds⟩
    · simpa [reports_append] using tracks.deadline
  · -- The code is reported: it is the latest report, and the deadline is a quiet period behind it.
    rw [Holdoff.offer_of_not_holds holds]
    refine ⟨tracks.paced.snoc (fun _ => by simp) ?_, tracks.gap, ?_⟩
    · intro nonempty
      obtain ⟨latest, last, ends⟩ := due nonempty
      have ended : latest + gapMs ≤ timeMs := by rw [ends] at holds; omega
      exact ⟨latest, last, by simpa using ended, by simpa using ended⟩
    · intro latest last
      obtain rfl : timeMs = latest := by simpa [reports_append] using last
      exact ⟨within, rfl⟩

end RemoteKeys
