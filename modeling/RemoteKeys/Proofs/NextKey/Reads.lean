import RemoteKeys.Proofs.NextKey.SamplingLoop
import RemoteKeys.Proofs.Playback.Pace

/-!
# What a call for the next key reads

Whatever a call waits for, it touches the register by reading it, and a code that it answers with is
what the last of its reads spells. A poll either waits, which reads nothing, or reads once; the
polls of a call are put together by counting their reads.

## Main statements

- `Device.found_nextKey`: a call reads the register, and what it answers was read last.
- `Device.found_tryKey`: so does a single look for a key.
-/

namespace RemoteKeys

theorem Outcome.code?_of_key? {outcome : Outcome} {code : Code} (key : outcome.key? = some code) :
    outcome.code? = some code := by
  cases outcome with
  | key _ => exact key
  | held _ | locked | unread => cases key

/-- No reading changes which codes are held back, or for how long. -/
theorem Setup.observe_scope_gap (s : Setup) (h : Holdoff) (reading : Option Word) (now : Instant) :
    (s.observe h reading now).2.scope = h.scope ∧ (s.observe h reading now).2.gap = h.gap := by
  cases reading with
  | none => exact ⟨rfl, rfl⟩
  | some raw =>
    cases decoded : s.decode raw with
    | none =>
      simp only [observe, decoded]
      exact h.step_scope_gap .disturb
    | some code =>
      simp only [observe, decoded]
      exact h.step_scope_gap (.offer code now)

namespace Device

variable {ρ ε : Type} [Register ρ ε]

/-- From `d` to `e` the register was read `reads` times; what the device is set up for has not
changed. -/
structure AfterReads (d : Device ρ) (reads : Nat) (e : Device ρ) : Prop where
  setup : e.setup = d.setup
  scope : e.receiver.holdoff.scope = d.receiver.holdoff.scope
  gap : e.receiver.holdoff.gap = d.receiver.holdoff.gap
  register : e.receiver.register = (Register.afterRead d.setup.minor)^[reads] d.receiver.register

/-- After `reads` others, the last read from `d` to `e` gave `raw`. -/
structure ReadsWord (d : Device ρ) (reads : Nat) (raw : Word) (e : Device ρ) : Prop where
  after : d.AfterReads (reads + 1) e
  word : (Register.read ((Register.afterRead d.setup.minor)^[reads] d.receiver.register)
    d.setup.minor).1 = .ok raw

/-- From `d` to `e` the register was read, and a code that was found is what it gave last. -/
def Found (d e : Device ρ) : Option Code → Prop
  | none => ∃ reads, d.AfterReads reads e
  | some code => ∃ reads raw, d.ReadsWord reads raw e ∧ d.setup.decode raw = some code

variable {d e f : Device ρ}

theorem AfterReads.refl (d : Device ρ) : d.AfterReads 0 d := ⟨rfl, rfl, rfl, rfl⟩

theorem AfterReads.trans {m n : Nat} (first : d.AfterReads m e) (second : e.AfterReads n f) :
    d.AfterReads (n + m) f := by
  refine ⟨second.setup.trans first.setup, second.scope.trans first.scope,
    second.gap.trans first.gap, ?_⟩
  rw [second.register, first.setup, first.register, Function.iterate_add_apply]

private theorem AfterReads.readsWord {m n : Nat} {raw : Word} (first : d.AfterReads m e)
    (second : e.ReadsWord n raw f) : d.ReadsWord (n + m) raw f := by
  refine ⟨?_, ?_⟩
  · rw [Nat.add_right_comm]
    exact first.trans second.after
  · rw [Function.iterate_add_apply, ← first.register, ← first.setup]
    exact second.word

theorem Found.exists_afterReads {code? : Option Code} (found : d.Found e code?) :
    ∃ reads, d.AfterReads reads e := by
  cases code? with
  | none => exact found
  | some code =>
    obtain ⟨reads, raw, read, -⟩ := found
    exact ⟨reads + 1, read.after⟩

private theorem AfterReads.found {reads : Nat} {code? : Option Code} (first : d.AfterReads reads e)
    (found : e.Found f code?) : d.Found f code? := by
  cases code? with
  | none =>
    obtain ⟨more, second⟩ := found
    exact ⟨more + reads, first.trans second⟩
  | some code =>
    obtain ⟨more, raw, read, spelled⟩ := found
    exact ⟨more + reads, raw, first.readsWord read, first.setup ▸ spelled⟩

/-! ### One read -/

theorem afterReads_sample (d : Device ρ) (now : Instant) : d.AfterReads 1 (d.sample now).2 := by
  obtain ⟨scope, gap⟩ := d.setup.observe_scope_gap d.receiver.holdoff
    (Register.read d.receiver.register d.setup.minor).1.toOption now
  exact ⟨rfl, scope, gap, rfl⟩

/-- A code that a sample carries, to report or held back, is what its read gave. -/
theorem readsWord_sample {d : Device ρ} {now : Instant} {code : Code}
    (carried : (d.sample now).1.code? = some code) :
    ∃ raw, d.ReadsWord 0 raw (d.sample now).2 ∧ d.setup.decode raw = some code := by
  have accounts := d.setup.accounts_observe d.receiver.holdoff
    (Register.read d.receiver.register d.setup.minor).1.toOption now
  change d.setup.Accounts _ (d.sample now).1 at accounts
  cases result : (Register.read d.receiver.register d.setup.minor).1 with
  | error fault =>
    rw [result] at accounts
    rw [show (d.sample now).1 = .unread from accounts] at carried
    cases carried
  | ok raw =>
    simp only [result, Except.toOption, Setup.Accounts] at accounts
    split at accounts
    · rw [accounts] at carried
      cases carried
    · obtain ⟨spelled, decoded, outcome⟩ := accounts
      have same : spelled = code := by
        rcases outcome with outcome | outcome
          <;> (rw [outcome] at carried; exact Option.some.inj carried)
      exact ⟨raw, ⟨d.afterReads_sample now, result⟩, same ▸ decoded⟩

private theorem found_tryKey (d : Device ρ) : d.Found d.tryKey.2 d.tryKey.1 := by
  cases key : d.tryKey.1 with
  | none => exact ⟨1, d.afterReads_sample d.clock⟩
  | some code =>
    obtain ⟨raw, read, decoded⟩ := readsWord_sample (Outcome.code?_of_key? key)
    exact ⟨0, raw, read, decoded⟩

/-! ### The polls of a call -/

private theorem found_sampleOrAwait (d : Device ρ) (periodMs : Nat) :
    d.Found (d.sampleOrAwait periodMs).2.2 (d.sampleOrAwait periodMs).1 := by
  have found := d.found_tryKey
  unfold sampleOrAwait
  rcases tried : d.tryKey with ⟨_ | code, e⟩ <;> rw [tried] at found
  · obtain ⟨reads, after⟩ := found
    exact ⟨reads, after.setup, after.scope, after.gap, after.register⟩
  · exact found

theorem found_pollNextKey (d : Device ρ) (timer? : Option Timer) :
    d.Found (d.pollNextKey timer?).2.2 (d.pollNextKey timer?).1 := by
  -- Moving the clock or serving the signal reads nothing.
  have moved (clock : Instant) : d.AfterReads 0 { d with clock } := ⟨rfl, rfl, rfl, rfl⟩
  have served (host : Host) : d.AfterReads 0 { d with host } := ⟨rfl, rfl, rfl, rfl⟩
  unfold pollNextKey
  split
  · next periodMs _ =>
    split
    · exact ⟨0, moved _⟩
    · split
      · exact (moved _).found (found_sampleOrAwait _ periodMs)
      · exact ⟨0, moved _⟩
  · split
    · exact (served _).found (found_tryKey _)
    · exact ⟨0, served _⟩

private theorem found_pollUpTo (d : Device ρ) (timer? : Option Timer) (spent left : Nat) :
    d.Found (d.pollUpTo timer? spent left).2 ((d.pollUpTo timer? spent left).1.map Prod.fst) := by
  induction left generalizing d timer? spent with
  | zero => exact ⟨0, .refl d⟩
  | succ left ih =>
    have polled := d.found_pollNextKey timer?
    unfold pollUpTo
    rcases poll : d.pollNextKey timer? with ⟨_ | code, timer?, e⟩ <;> rw [poll] at polled
    · obtain ⟨reads, before⟩ := polled
      exact before.found (ih e timer? (spent + 1))
    · exact polled

theorem found_nextKey (d : Device ρ) (polls : Nat) :
    d.Found (d.nextKey polls).2 ((d.nextKey polls).1.map Prod.fst) :=
  d.found_pollUpTo none 0 polls

end Device

end RemoteKeys
