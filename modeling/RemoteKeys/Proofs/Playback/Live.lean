import Mathlib.Data.List.Infix
import RemoteKeys.Bench
import RemoteKeys.Proofs.Cards
import RemoteKeys.Proofs.Playback.Pace

/-!
# Playing back and reading live

A live device reads a latch on which the readings of a trace are queued while it is already reading
it, and takes the time from its clock. A play-back reads them off a tape, each at its recorded time.
Both find the same keys, however the queuing falls between the reads: what is queued and not read
yet, followed by what is still to be queued, is what is left on the tape.

## Main result

`Trace.play_live`: a live device answers with the keys of the play-back, and has its hold-off at
every moment.

## Proof strategy

`InStep` relates a bench in the middle of its script to a receiver in the middle of its tape. A step
of the script that reads the latch takes both on by one reading, and every other step leaves the
receiver where it is (`InStep.cases_step`). The statement on whole scripts is an induction over
that.
-/

namespace RemoteKeys

/-- The reading that a step queues. -/
def Bench.Step.reading? : Bench.Step → Option (Option Word)
  | .queueWord word => some (some word)
  | .queueFailure => some none
  | _ => none

/-- What a look for a key answered, if the reply is to one. -/
def Bench.Reply.look? : Bench.Reply → Option (Option Code)
  | .device (.code code?) => some code?
  | _ => none

/-- What the looks for a key in a script were answered, in order. -/
def Bench.keysFound (b : Bench) (script : List Bench.Step) : List (Option Code) :=
  (b.run script).filterMap fun answer => answer.1.look?

/-- The steps that read a bench at those times: the clock is set, and the register is read. -/
def Bench.looksAt (times : List Instant) : List Bench.Step :=
  times.flatMap fun now => [.setClock now, .tryKey]

/-- A script that queues the readings of a trace, and reads each at its own time. -/
structure Trace.IsLive (t : Trace) (script : List Bench.Step) : Prop where
  queued : script.filterMap Bench.Step.reading? = t.map Sample.reading
  looks : script.filter (fun step => step.reading?.isNone) = Bench.looksAt t.times
  /-- Whenever the latch is read, the reading has been queued. -/
  ahead : ∀ before, before <+: script → before.count .tryKey ≤
    (before.filterMap Bench.Step.reading?).length

/-! ### What a step does -/

private theorem Receiver.sample_latch {r : Receiver Latch} {result : Except LatchFailure Word}
    {rest : List (Except LatchFailure Word)} (next : r.register.queue = result :: rest)
    (now : Instant) :
    (r.sample now).1 = (r.setup.observe r.holdoff result.toOption now).1 ∧
      (r.sample now).2.holdoff = (r.setup.observe r.holdoff result.toOption now).2 ∧
        (r.sample now).2.register.queue = rest := by
  simp [Receiver.sample, Register.read, Latch.read, next]

namespace Bench

private theorem step_of_reading? {step : Step} {reading : Option Word}
    (queues : step.reading? = some reading) (b : Bench) :
    ∃ result, Except.toOption result = reading ∧
      b.step step = b.act (.changeRegister fun l => { l with queue := l.queue ++ [result] }) := by
  cases step with
  | queueWord word =>
    cases queues
    exact ⟨.ok word, rfl, rfl⟩
  | queueFailure =>
    cases queues
    exact ⟨.error .queued, rfl, rfl⟩
  | _ => cases queues

private theorem keysFound_cons (b : Bench) (next : Step) (rest : List Step) :
    b.keysFound (next :: rest) = (b.step next).1.look?.toList ++
      (b.step next).2.keysFound rest := by
  rw [keysFound, run, List.filterMap_cons]
  cases (b.step next).1.look? <;> rfl

/-- The bench, with the rest of its script, has come as far as the receiver, with the rest of its
times. -/
structure InStep (b : Bench) (script : List Step) (r : Receiver Tape)
    (times : List Instant) : Prop where
  setup : b.device.setup = r.setup
  holdoff : b.device.receiver.holdoff = r.holdoff
  readings : r.register.readings =
    b.device.receiver.register.queue.map Except.toOption ++ script.filterMap Step.reading?
  /-- The clock may have been set already for the next look. -/
  looks : script.filter (fun step => step.reading?.isNone) = looksAt times ∨
    ∃ later, times = b.device.clock :: later ∧
      script.filter (fun step => step.reading?.isNone) = .tryKey :: looksAt later
  ahead : ∀ before, before <+: script →
    before.count .tryKey ≤
      b.device.receiver.register.queue.length + (before.filterMap Step.reading?).length

namespace InStep

variable {b : Bench} {step : Step} {rest : List Step} {r : Receiver Tape} {times : List Instant}

private theorem queue {reading : Option Word} (inStep : InStep b (step :: rest) r times)
    (queues : step.reading? = some reading) : InStep (b.step step).2 rest r times := by
  obtain ⟨result, same, stepped⟩ := step_of_reading? queues b
  obtain ⟨setup, holdoff, readings, looks, ahead⟩ := inStep
  rw [stepped]
  rw [List.filter_cons_of_neg (by simp [queues])] at looks
  refine ⟨setup, holdoff, ?_, looks, ?_⟩
  · -- The reading goes from the front of what is to be queued to the end of the queue.
    rw [readings, List.filterMap_cons_some queues]
    simp [act, Device.act, same]
  · intro before within
    have bound := ahead (step :: before) (List.cons_prefix_cons.mpr ⟨rfl, within⟩)
    have other : step ≠ .tryKey := by rintro rfl; cases queues
    rw [List.count_cons_of_ne other, List.filterMap_cons_some queues] at bound
    simp only [act, Device.act, List.length_append, List.length_cons, List.length_nil] at bound ⊢
    omega

private theorem setClock {now : Instant} (inStep : InStep b (.setClock now :: rest) r times) :
    InStep (b.step (.setClock now)).2 rest r times := by
  obtain ⟨setup, holdoff, readings, looks, ahead⟩ := inStep
  rw [List.filter_cons_of_pos rfl] at looks
  refine ⟨setup, holdoff, readings, .inr ?_, ?_⟩
  · rcases looks with aligned | ⟨later, -, waiting⟩
    · cases times with
      | nil => cases aligned
      | cons first later =>
        obtain ⟨set, more⟩ := List.cons.inj aligned
        exact ⟨later, congrArg (· :: later) (Step.setClock.inj set).symm, more⟩
    · cases (List.cons.inj waiting).1
  · intro before within
    have bound := ahead (.setClock now :: before) (List.cons_prefix_cons.mpr ⟨rfl, within⟩)
    rwa [List.count_cons_of_ne (by simp), List.filterMap_cons_none rfl] at bound

private theorem tryKey (inStep : InStep b (.tryKey :: rest) r times) :
    ∃ now later, times = now :: later ∧
      (b.step .tryKey).1 = .device (.code (r.sample now).1.key?) ∧
      InStep (b.step .tryKey).2 rest (r.sample now).2 later := by
  obtain ⟨setup, holdoff, readings, looks, ahead⟩ := inStep
  rw [List.filter_cons_of_pos rfl] at looks
  -- The clock has been set for this look.
  obtain ⟨later, rfl, more⟩ : ∃ later, times = b.device.clock :: later ∧
      rest.filter (fun step => step.reading?.isNone) = looksAt later := by
    rcases looks with aligned | ⟨later, due, waiting⟩
    · cases times with
      | nil => cases aligned
      | cons _ _ => cases (List.cons.inj aligned).1
    · exact ⟨later, due, (List.cons.inj waiting).2⟩
  -- The reading is there, since it was queued before.
  obtain ⟨result, queue, queued⟩ : ∃ result queue, b.device.receiver.register.queue =
      result :: queue := by
    have bound := ahead [.tryKey] (List.cons_prefix_cons.mpr ⟨rfl, List.nil_prefix⟩)
    rw [List.count_singleton_self, List.filterMap_cons_none rfl] at bound
    exact List.exists_cons_of_length_pos bound
  obtain ⟨outcome, kept, left⟩ := Receiver.sample_latch queued b.device.clock
  have same_setup : b.device.receiver.setup = r.setup := setup
  rw [same_setup, holdoff] at outcome kept
  rw [queued, List.map_cons, List.cons_append, List.filterMap_cons_none rfl] at readings
  refine ⟨b.device.clock, later, rfl, ?_, ?_⟩
  · -- Latch and tape gave the same reading.
    rw [Receiver.sample_tape readings, ← outcome]
    rfl
  · rw [Receiver.sample_tape readings]
    have after : (b.step .tryKey).2.device.receiver.register.queue = queue := left
    refine ⟨setup, kept, by rw [after], .inl more, ?_⟩
    intro before within
    have bound := ahead (.tryKey :: before) (List.cons_prefix_cons.mpr ⟨rfl, within⟩)
    rw [List.count_cons_self, List.filterMap_cons_none rfl, queued, List.length_cons] at bound
    rw [after]
    omega

/-- Queuing and setting the clock do nothing to the receiver, and a look reads its next reading. -/
theorem cases_step {next : Step} (inStep : InStep b (next :: rest) r times) :
    (next ≠ .tryKey ∧ (b.step next).1.look? = none ∧ InStep (b.step next).2 rest r times) ∨
      (next = .tryKey ∧ ∃ now later, times = now :: later ∧
        (b.step next).1 = .device (.code (r.sample now).1.key?) ∧
        InStep (b.step next).2 rest (r.sample now).2 later) := by
  cases queues : next.reading? with
  | some reading =>
    obtain ⟨result, -, stepped⟩ := step_of_reading? queues b
    refine .inl ⟨?_, by rw [stepped]; rfl, inStep.queue queues⟩
    rintro rfl
    cases queues
  | none =>
    have looks := inStep.looks
    rw [List.filter_cons_of_pos (by rw [queues]; rfl)] at looks
    rcases looks with aligned | ⟨later, -, waiting⟩
    · cases times with
      | nil => cases aligned
      | cons now later =>
        obtain ⟨rfl, -⟩ := List.cons.inj aligned
        exact .inl ⟨by simp, rfl, inStep.setClock⟩
    · obtain ⟨rfl, -⟩ := List.cons.inj waiting
      exact .inr ⟨rfl, inStep.tryKey⟩

/-- Whatever is left of the script, it finds the keys that are left of the tape. -/
theorem run {script : List Step} (inStep : InStep b script r times) :
    b.keysFound script = (r.sampleAll times).1.map Outcome.key? ∧
      ∀ before, before <+: script → (b.after before).device.receiver.holdoff =
        (r.sampleAll (times.take (before.count .tryKey))).2.holdoff := by
  induction script generalizing b r times with
  | nil =>
    have done : times = [] := by
      rcases inStep.looks with aligned | ⟨later, -, waiting⟩
      · cases times with
        | nil => rfl
        | cons _ _ => cases aligned
      · cases waiting
    subst done
    refine ⟨rfl, fun before within => ?_⟩
    rw [List.prefix_nil.mp within]
    exact inStep.holdoff
  | cons next rest ih =>
    have start : b.device.receiver.holdoff = r.holdoff := inStep.holdoff
    rcases inStep.cases_step with ⟨other, silent, kept⟩ | ⟨rfl, now, later, rfl, answer, taken⟩
    · obtain ⟨keys, holdoffs⟩ := ih kept
      refine ⟨by rw [keysFound_cons, silent, keys]; rfl, fun before within => ?_⟩
      rcases List.prefix_cons_iff.mp within with rfl | ⟨earlier, rfl, inside⟩
      · exact start
      · rw [List.count_cons_of_ne other]
        exact holdoffs earlier inside
    · obtain ⟨keys, holdoffs⟩ := ih taken
      refine ⟨by rw [keysFound_cons, answer, keys]; rfl, fun before within => ?_⟩
      rcases List.prefix_cons_iff.mp within with rfl | ⟨earlier, rfl, inside⟩
      · exact start
      · rw [List.count_cons_self, List.take_succ_cons]
        exact holdoffs earlier inside

end InStep

end Bench

/-! ### Main result -/

private theorem Trace.map_key?_play (t : Trace) (s : Setup) : (t.play s).map (fun p => p.2.key?) =
    ((Receiver.start s t.tape).sampleAll t.times).1.map Outcome.key? := by
  have lengths : (t.map Sample.timeMs).length =
      ((Receiver.start s t.tape).sampleAll t.times).1.length := by
    simp [Receiver.length_sampleAll, times]
  calc (t.play s).map (fun p => p.2.key?)
    _ = ((t.play s).map Prod.snd).map Outcome.key? := by rw [List.map_map]; rfl
    _ = ((Receiver.start s t.tape).sampleAll t.times).1.map Outcome.key? := by
      rw [play, List.map_snd_zip (Nat.le_of_eq lengths.symm)]

/--
A live device reads a latch on which the readings of a trace are queued, each at any moment before
it is read, and sets its clock to each sample's time. It answers with the keys that the play-back
reports and with none where that reports none, and at every moment its hold-off is that of the
play-back which has come as far.
-/
theorem Trace.play_live {t : Trace} {script : List Bench.Step} (live : t.IsLive script)
    (name : String) (s : Setup) (word : Word) (clock : Instant) :
    let b := Bench.start name s word clock
    b.keysFound script = (t.play s).map (fun p => p.2.key?) ∧
      ∀ before, before <+: script → (b.after before).device.receiver.holdoff =
        ((Receiver.start s t.tape).sampleAll (t.times.take (before.count .tryKey))).2.holdoff := by
  intro b
  have inStep : b.InStep script (Receiver.start s t.tape) t.times := by
    refine ⟨rfl, rfl, ?_, .inl live.looks, ?_⟩
    · exact live.queued.symm
    · intro before within
      have bound := live.ahead before within
      exact Nat.le_trans bound (Nat.le_add_left _ _)
  rw [t.map_key?_play s]
  exact inStep.run

/-- Readings that are queued long before, or between the setting of the clock and the look
itself. -/
theorem play_live_bt848 :
    let t : Trace := [⟨1000, some 0x1500⟩, ⟨1083, some 0x1500⟩, ⟨1166, none⟩, ⟨1249, some 0x9500⟩,
      ⟨1332, some 0x1500⟩, ⟨900, some 0x1500⟩]
    let script : List Bench.Step := [.queueWord 0x1500, .queueWord 0x1500,
      .setClock (.ofMillis 1000), .tryKey, .setClock (.ofMillis 1083), .queueFailure, .tryKey,
      .queueWord 0x9500, .setClock (.ofMillis 1166), .tryKey,
      .setClock (.ofMillis 1249), .tryKey, .setClock (.ofMillis 1332), .queueWord 0x1500, .tryKey,
      .setClock (.ofMillis 900), .queueWord 0x1500, .tryKey]
    let b := Bench.start "bt848" bt848 0x1600 (.ofTicks 1)
    t.IsLive script ∧ b.keysFound script = [some 21, none, none, none, some 21, none] ∧
      b.keysFound script = (t.play bt848).map (fun p => p.2.key?) ∧
      ∀ before, before <+: script → (b.after before).device.receiver.holdoff =
        ((Receiver.start bt848 t.tape).sampleAll
          (t.times.take (before.count .tryKey))).2.holdoff := by
  intro t script b
  have ahead : ∀ before ∈ script.inits,
      before.count .tryKey ≤ (before.filterMap Bench.Step.reading?).length := by decide
  have live : t.IsLive script :=
    ⟨by decide, by decide, fun before within => ahead before ((List.mem_inits before script).mpr
      within)⟩
  obtain ⟨keys, holdoffs⟩ := Trace.play_live live "bt848" bt848 0x1600 (.ofTicks 1)
  exact ⟨live, by decide +kernel, keys, holdoffs⟩

end RemoteKeys
