import RemoteKeys.Proofs.NextKey.Signal

/-!
# What an action touches

A device has parts that change while it is used: the count of its users, the signal, the hold-off,
the register and the clock. Each action keeps to its own parts, whatever state the device is in and
whatever the register gives, and no action touches the card and how it is set up. Most actions touch
the register by reading it, so that a register which lists its reads shows how often each of them
did.

## Main result

`Device.actions_keep_to_parts`: what each action leaves alone, what no history changes, and how many
reads a history makes.

## Proof strategy

A call for the next key is the only action that goes on for several steps. What one poll of it
touches is read off the poll (`agree_pollNextKey`), and a call touches no more than its polls do.
How often it reads is known from the sampling loop on a polled device, and from the one poll that
finds the signal on an interrupt driven one. Every other action is one step.
-/

namespace RemoteKeys

/-- A register that keeps a list of the minors that it was asked for. -/
def Register.Lists {ρ ε : Type} [Register ρ ε] (asked : ρ → List Nat) : Prop :=
  ∀ register minor, asked (Register.read register minor).2 = asked register ++ [minor]

namespace Device

variable {ρ ε : Type}

/-- What there is of a device. -/
inductive Part where
  /-- The name, and how the card is set up. -/
  | card
  | users
  | signal
  | holdoff
  | register
  | clock
  deriving DecidableEq

/-- The devices have that part in common. -/
def Agree (d e : Device ρ) : Part → Prop
  | .card => d.name = e.name ∧ d.setup = e.setup
  | .users => d.host.users = e.host.users
  | .signal => d.host.notified = e.host.notified
  | .holdoff => d.receiver.holdoff = e.receiver.holdoff
  | .register => d.receiver.register = e.receiver.register
  | .clock => d.clock = e.clock

/-- The parts that a call for the next key may change. -/
def callTouches : Trigger → List Part
  | .polled => [.holdoff, .register, .clock]
  | .interrupt => [.holdoff, .register, .signal]

/-- The parts that the action may change, on a device with that trigger. -/
def Action.touches (trigger : Trigger) : Action ρ → List Part
  | .changeRegister _ => [.register]
  | .setClock _ => [.clock]
  | .sample _ | .keyAt _ | .tryKey => [.holdoff, .register]
  | .decode _ | .askSignal => []
  | .reset => [.holdoff]
  | .acquire | .acquireFromHost | .release => [.users]
  | .notify | .takeSignal => [.signal]
  | .nextKey _ => callTouches trigger

/-- The action is one sample: it reads the register once. -/
def Action.isSample : Action ρ → Bool
  | .sample _ | .keyAt _ | .tryKey => true
  | _ => false

/-- Number of polls that a call for the next key took: up to its answer, or all of them. -/
def Event.polls (e : Event ρ) : Nat :=
  match e.action, e.reply with
  | .nextKey _, .nextKey (some (_, taken)) => taken
  | .nextKey polls, _ => polls
  | _, _ => 0

/--
Number of reads that a call for the next key makes. On a polled device every poll but the first one
reads, and on an interrupt driven one the poll does that finds the signal raised.
-/
def Event.nextKeyReads (e : Event ρ) : Nat :=
  match e.before.setup.trigger with
  | .polled => e.polls - 1
  | .interrupt => e.callReads

/-- Number of reads that the event makes. -/
def Event.reads (e : Event ρ) : Nat :=
  match e.action with
  | .sample _ | .keyAt _ | .tryKey => 1
  | .nextKey _ => e.nextKeyReads
  | _ => 0

theorem Agree.refl (d : Device ρ) (part : Part) : d.Agree d part := by
  cases part with
  | card => exact ⟨rfl, rfl⟩
  | users | signal | holdoff | register | clock => rfl

theorem Agree.trans {d e f : Device ρ} {part : Part} (first : d.Agree e part)
    (second : e.Agree f part) :
    d.Agree f part := by
  cases part with
  | card => exact ⟨first.1.trans second.1, first.2.trans second.2⟩
  | users | signal | holdoff | register | clock => exact Eq.trans first second

private theorem eq_of_agree {d e : Device ρ} (agree : ∀ part, d.Agree e part) : e = d := by
  rcases d with ⟨name, ⟨setup, holdoff, register⟩, ⟨users, notified⟩, clock⟩
  rcases e with ⟨name', ⟨setup', holdoff', register'⟩, ⟨users', notified'⟩, clock'⟩
  obtain ⟨rfl, rfl⟩ : name = name' ∧ setup = setup' := agree .card
  obtain rfl : users = users' := agree .users
  obtain rfl : notified = notified' := agree .signal
  obtain rfl : holdoff = holdoff' := agree .holdoff
  obtain rfl : register = register' := agree .register
  obtain rfl : clock = clock' := agree .clock
  rfl

private theorem card_not_mem_callTouches (trigger : Trigger) : Part.card ∉ callTouches trigger := by
  cases trigger <;> decide

private theorem card_not_mem_touches (action : Action ρ) (trigger : Trigger) :
    Part.card ∉ action.touches trigger := by
  cases action with
  | nextKey polls => exact card_not_mem_callTouches trigger
  | _ => simp [Action.touches]

private theorem Event.nextKeyReads_eq_zero {e : Event ρ}
    (other : ∀ polls, e.action ≠ .nextKey polls) :
    e.nextKeyReads = 0 := by
  have no_polls : e.polls = 0 := by
    unfold polls
    split
    · next call _ => exact absurd call (other _)
    · next call _ => exact absurd call (other _)
    · rfl
  have no_call : e.callReads = 0 := by
    unfold callReads
    split
    · next call => exact absurd call (other _)
    · rfl
  rw [nextKeyReads]
  split
  · rw [no_polls]
  · exact no_call

private theorem Event.reads_eq_add (e : Event ρ) :
    e.reads = e.action.isSample.toNat + e.nextKeyReads := by
  cases action : e.action with
  | nextKey polls => simp only [reads, action, Action.isSample, Bool.toNat_false, Nat.zero_add]
  | _ =>
    have no_call : e.nextKeyReads = 0 := nextKeyReads_eq_zero (by simp [action])
    simp only [reads, action, Action.isSample, no_call, Bool.toNat_false, Bool.toNat_true]

variable [Register ρ ε]

/-! ### A call for the next key -/

private theorem exists_sampleOrAwait (d : Device ρ) (periodMs : Nat) : ∃ clock,
    (d.sampleOrAwait periodMs).2.2 =
      { d with receiver := (d.receiver.sample d.clock).2, clock } := by
  simp only [sampleOrAwait, tryKey, sample]
  -- With a key the clock stays, and without one it goes on to the next deadline.
  cases (d.receiver.sample d.clock).1.key? with
  | none => exact ⟨_, rfl⟩
  | some code => exact ⟨d.clock, rfl⟩

/-- A poll on a polled device waits or reads the register once, and it may move the clock. -/
theorem exists_pollNextKey_polled {d : Device ρ} (polled : d.setup.trigger = .polled)
    (timer? : Option Timer) :
    ∃ receiver clock, (receiver = d.receiver ∨ ∃ now, receiver = (d.receiver.sample now).2) ∧
      (d.pollNextKey timer?).2.2 = { d with receiver, clock } := by
  obtain ⟨period, sampled⟩ := Setup.exists_period polled
  obtain ⟨periodMs, rated, -⟩ := Option.map_eq_some_iff.mp sampled
  cases timer? with
  | none => exact ⟨d.receiver, d.clock.later period, .inl rfl, by rw [pollNextKey_first sampled]⟩
  | some timer =>
    rcases asked : timer.poll d.clock with ⟨_ | _, next, clock⟩
    · exact ⟨d.receiver, clock, .inl rfl, by simp only [pollNextKey, rated, asked]⟩
    · obtain ⟨later, looked⟩ := exists_sampleOrAwait { d with clock } periodMs
      exact ⟨_, later, .inr ⟨clock, rfl⟩, by simp only [pollNextKey, rated, asked, looked]⟩

private theorem agree_pollNextKey (d : Device ρ) (timer? : Option Timer) {part : Part}
    (other : part ∉ callTouches d.setup.trigger) : d.Agree (d.pollNextKey timer?).2.2 part := by
  cases trigger : d.setup.trigger with
  | polled =>
    obtain ⟨receiver, clock, sampled, polled⟩ := exists_pollNextKey_polled trigger timer?
    have setup : d.receiver.setup = receiver.setup := by
      rcases sampled with rfl | ⟨now, rfl⟩ <;> rfl
    rw [trigger] at other
    rw [polled]
    cases part with
    | card => exact ⟨rfl, setup⟩
    | users | signal => rfl
    | holdoff | register | clock => exact absurd (by decide) other
  | interrupt =>
    rw [trigger] at other
    rw [pollNextKey_interrupt trigger]
    split
    · cases part with
      | card => exact ⟨rfl, rfl⟩
      | users | clock => rfl
      | holdoff | register | signal => exact absurd (by decide) other
    · exact .refl d part

/-- A single poll reads the register once at most. -/
theorem register_pollNextKey (d : Device ρ) (timer? : Option Timer) : ∃ reads ≤ 1,
    (d.pollNextKey timer?).2.2.receiver.register =
      (Register.afterRead d.setup.minor)^[reads] d.receiver.register := by
  cases trigger : d.setup.trigger with
  | polled =>
    obtain ⟨receiver, clock, sampled, polled⟩ := exists_pollNextKey_polled trigger timer?
    rw [polled]
    rcases sampled with rfl | ⟨now, rfl⟩
    · exact ⟨0, Nat.zero_le 1, rfl⟩
    · exact ⟨1, Nat.le_refl 1, (d.afterReads_sample now).register⟩
  | interrupt =>
    rw [pollNextKey_interrupt trigger]
    split
    · exact ⟨1, Nat.le_refl 1, (d.serve.afterReads_sample d.clock).register⟩
    · exact ⟨0, Nat.zero_le 1, rfl⟩

private theorem agree_pollUpTo (d : Device ρ) (timer? : Option Timer) (spent left : Nat)
    {part : Part} (other : part ∉ callTouches d.setup.trigger) :
    d.Agree (d.pollUpTo timer? spent left).2 part := by
  induction left generalizing d timer? spent with
  | zero => exact .refl d part
  | succ left ih =>
    have first := d.agree_pollNextKey timer? other
    -- A poll leaves the card alone, so that the next one touches the same parts.
    obtain ⟨-, setup⟩ := d.agree_pollNextKey timer? (card_not_mem_callTouches _)
    unfold pollUpTo
    rcases poll : d.pollNextKey timer? with ⟨_ | code, next, e⟩ <;> rw [poll] at first setup
    · exact first.trans (ih e next (spent + 1) (setup ▸ other))
    · exact first

private theorem register_nextKey_polled {d : Device ρ} (polled : d.setup.trigger = .polled)
    (polls : Nat) :
    (d.nextKey polls).2.receiver.register =
      (Register.afterRead d.setup.minor)^[(d.event (.nextKey polls)).polls - 1]
        d.receiver.register := by
  obtain ⟨period, sampled⟩ := Setup.exists_period polled
  cases polls with
  | zero => rfl
  | succ left =>
    have call := d.nextKey_succ sampled left
    have register := d.receiver.register_sampleUntilKey (d.clock.every period left)
    rcases looped : d.receiver.sampleUntilKey (d.clock.every period left)
      with ⟨key?, reads, receiver⟩
    obtain ⟨-, -, whole⟩ := Receiver.reads_sampleUntilKey looped
    rw [looped] at call register
    cases key? with
    | some code =>
      have taken : (d.event (.nextKey (left + 1))).polls = reads + 1 := by
        simp only [Event.polls, Device.event, act, call]
      rw [call, taken]
      exact register
    | none =>
      have taken : (d.event (.nextKey (left + 1))).polls = left + 1 := by
        simp only [Event.polls, Device.event, act, call]
      have times : reads = left := (whole rfl).trans (Instant.length_every ..)
      rw [call, taken, Nat.add_sub_cancel, ← times]
      exact register

private theorem register_nextKey_interrupt {d : Device ρ} (interrupt : d.setup.trigger = .interrupt)
    (polls : Nat) :
    (d.nextKey polls).2.receiver.register =
      (Register.afterRead d.setup.minor)^[(d.event (.nextKey polls)).callReads]
        d.receiver.register := by
  cases polls with
  | zero => rfl
  | succ left =>
    cases raised : d.host.notified with
    | false =>
      have unread : (d.event (.nextKey (left + 1))).callReads = 0 := by
        simp [Event.callReads, Device.event, raised]
      rw [nextKey_quiet interrupt raised, unread]
      rfl
    | true =>
      have once : (d.event (.nextKey (left + 1))).callReads = 1 := by
        simp [Event.callReads, Device.event, raised]
      rw [nextKey_raised interrupt raised, once]
      exact (d.serve.afterReads_sample d.clock).register

/-! ### One action -/

/-- An action leaves every part alone that it does not touch. -/
theorem agree_act (d : Device ρ) (action : Action ρ) {part : Part}
    (other : part ∉ action.touches d.setup.trigger) : d.Agree (d.act action).2 part := by
  cases action with
  | nextKey polls => exact d.agree_pollUpTo none 0 polls other
  | decode raw | askSignal => exact .refl d part
  | sample now | keyAt now | tryKey =>
    cases part with
    | holdoff | register => exact absurd (by simp [Action.touches]) other
    | card => exact ⟨rfl, rfl⟩
    | users | signal | clock => rfl
  | changeRegister change =>
    cases part with
    | register => exact absurd (by simp [Action.touches]) other
    | card => exact ⟨rfl, rfl⟩
    | users | signal | holdoff | clock => rfl
  | setClock now =>
    cases part with
    | clock => exact absurd (by simp [Action.touches]) other
    | card => exact ⟨rfl, rfl⟩
    | users | signal | holdoff | register => rfl
  | reset =>
    cases part with
    | holdoff => exact absurd (by simp [Action.touches]) other
    | card => exact ⟨rfl, rfl⟩
    | users | signal | register | clock => rfl
  | acquire | acquireFromHost | release =>
    cases part with
    | users => exact absurd (by simp [Action.touches]) other
    | card => exact ⟨rfl, rfl⟩
    | signal | holdoff | register | clock => rfl
  | notify | takeSignal =>
    cases part with
    | signal => exact absurd (by simp [Action.touches]) other
    | card => exact ⟨rfl, rfl⟩
    | users | holdoff | register | clock => rfl

/-- The register is what the reads of the action leave of it, where it does not change by itself. -/
theorem register_act (d : Device ρ) {action : Action ρ}
    (kept : ∀ change, action ≠ .changeRegister change) :
    (d.act action).2.receiver.register =
      (Register.afterRead d.setup.minor)^[(d.event action).reads] d.receiver.register := by
  cases action with
  | nextKey polls =>
    have reads : (d.event (.nextKey polls)).reads = (d.event (.nextKey polls)).nextKeyReads := rfl
    cases trigger : d.setup.trigger with
    | polled =>
      have polled_reads : (d.event (.nextKey polls)).nextKeyReads =
          (d.event (.nextKey polls)).polls - 1 := by
        simp only [Event.nextKeyReads, Device.event, trigger]
      rw [reads, polled_reads]
      exact register_nextKey_polled trigger polls
    | interrupt =>
      have interrupt_reads : (d.event (.nextKey polls)).nextKeyReads =
          (d.event (.nextKey polls)).callReads := by
        simp only [Event.nextKeyReads, Device.event, trigger]
      rw [reads, interrupt_reads]
      exact register_nextKey_interrupt trigger polls
  | sample now | keyAt now => exact (d.afterReads_sample now).register
  | tryKey => exact (d.afterReads_sample d.clock).register
  | changeRegister change => exact absurd rfl (kept change)
  | setClock _ | decode _ | reset | acquire | acquireFromHost | release | notify | takeSignal
  | askSignal => rfl

/-! ### Whole histories -/

private theorem kept_afterAll (d : Device ρ) (actions : List (Action ρ)) :
    d.Agree (d.afterAll actions) .card ∧
    (d.afterAll actions).receiver.holdoff.scope = d.receiver.holdoff.scope ∧
      (d.afterAll actions).receiver.holdoff.gap = d.receiver.holdoff.gap := by
  induction actions generalizing d with
  | nil => exact ⟨.refl d .card, rfl, rfl⟩
  | cons action rest ih =>
    obtain ⟨name, setup⟩ := d.agree_act action (card_not_mem_touches action d.setup.trigger)
    obtain ⟨-, scope, gap⟩ := d.act_kept action
    obtain ⟨⟨later_name, later_setup⟩, later_scope, later_gap⟩ := ih (d.act action).2
    exact ⟨⟨name.trans later_name, setup.trans later_setup⟩, later_scope.trans scope,
      later_gap.trans gap⟩

private theorem asked_iterate {asked : ρ → List Nat} (lists : Register.Lists asked)
    (minor reads : Nat) (register : ρ) :
    asked ((Register.afterRead minor)^[reads] register) =
      asked register ++ List.replicate reads minor := by
  induction reads generalizing register with
  | zero => simp
  | succ reads ih =>
    have first : asked (Register.afterRead minor register) = asked register ++ [minor] :=
      lists register minor
    rw [Function.iterate_succ_apply, ih, first, List.append_assoc, List.singleton_append,
      List.replicate_succ]

private theorem asked_act {asked : ρ → List Nat} (lists : Register.Lists asked) (d : Device ρ)
    (action : Action ρ)
    (kept : ∀ change, action = .changeRegister change →
      ∀ register, asked (change register) = asked register) :
    asked (d.act action).2.receiver.register =
      asked d.receiver.register ++ List.replicate (d.event action).reads d.setup.minor := by
  by_cases changes : ∃ change, action = .changeRegister change
  · obtain ⟨change, rfl⟩ := changes
    have same : asked (change d.receiver.register) = asked d.receiver.register := kept change rfl _
    have silent : (d.event (.changeRegister change)).reads = 0 := rfl
    rw [silent, List.replicate_zero, List.append_nil]
    exact same
  · rw [d.register_act fun change same => changes ⟨change, same⟩, asked_iterate lists]

private theorem asked_afterAll {asked : ρ → List Nat} (lists : Register.Lists asked) (d : Device ρ)
    (actions : List (Action ρ))
    (kept : ∀ change, .changeRegister change ∈ actions →
      ∀ register, asked (change register) = asked register) :
    asked (d.afterAll actions).receiver.register = asked d.receiver.register ++
      List.replicate ((d.history actions).map Event.reads).sum d.setup.minor := by
  induction actions generalizing d with
  | nil => simp [afterAll, history]
  | cons action rest ih =>
    have first := d.asked_act lists action fun change same => kept change (by simp [same])
    have later :=
      ih (d.act action).2 fun change member => kept change (List.mem_cons_of_mem _ member)
    have setup : (d.act action).2.setup = d.setup := (d.act_kept action).1
    rw [afterAll, List.foldl_cons, ← afterAll, later, first, setup, history, List.map_cons,
      List.sum_cons, List.replicate_add, List.append_assoc]

private theorem sum_reads (d : Device ρ) (actions : List (Action ρ)) :
    ((d.history actions).map Event.reads).sum =
    actions.countP Action.isSample + ((d.history actions).map Event.nextKeyReads).sum := by
  induction actions generalizing d with
  | nil => rfl
  | cons action rest ih =>
    have first : (d.event action).reads = action.isSample.toNat + (d.event action).nextKeyReads :=
      (d.event action).reads_eq_add
    have later := ih (d.act action).2
    simp only [history, List.map_cons, List.sum_cons, List.countP_cons, first, later]
    cases action.isSample <;> simp <;> omega

/-! ### Main result -/

/--
A device of any card on any register, whatever was done to it before. Each action leaves the parts
alone that it does not touch, and one that touches none leaves the device as it is; so does every
single poll of a call for the next key, whatever happened since the poll before. The register is
read for the minor of the card, once by each sample and at most once by each poll, and is not
touched in any other way. No history changes how the card is set up, which codes are held back and
for how long, or what the host records of the device. A register that lists its reads shows as many
after a history as there were samples in it, and those that the calls made.
-/
theorem actions_keep_to_parts (name : String) (s : Setup) (register : ρ) (clock : Instant)
    (actions : List (Action ρ)) :
    let d := Device.start name s register clock
    (∀ e ∈ d.history actions,
      (∀ part, part ∉ e.action.touches s.trigger → e.before.Agree e.after part) ∧
      (e.action.touches s.trigger = [] → e.after = e.before) ∧
      ((∀ change, e.action ≠ .changeRegister change) →
        e.after.receiver.register =
        (Register.afterRead s.minor)^[e.reads] e.before.receiver.register)) ∧
    (∀ any : Device ρ, any.setup = s → ∀ timer?,
      (∀ part, part ∉ callTouches s.trigger → any.Agree (any.pollNextKey timer?).2.2 part) ∧
      ∃ reads ≤ 1, (any.pollNextKey timer?).2.2.receiver.register =
        (Register.afterRead s.minor)^[reads] any.receiver.register) ∧
    ((d.afterAll actions).setup = s ∧ (d.afterAll actions).receiver.holdoff.scope = s.holdoffScope ∧
      (d.afterAll actions).receiver.holdoff.gap = s.gap ∧
      (d.afterAll actions).descriptor = d.descriptor) ∧
    ∀ asked : ρ → List Nat, Register.Lists asked →
      (∀ change, .changeRegister change ∈ actions → ∀ register,
        asked (change register) = asked register) →
      asked (d.afterAll actions).receiver.register = asked register ++ List.replicate
        (actions.countP Action.isSample + ((d.history actions).map Event.nextKeyReads).sum)
          s.minor := by
  intro d
  refine ⟨?_, ?_, ?_, ?_⟩
  · intro e member
    obtain ⟨before, action, rfl, same, -⟩ := exists_event_of_mem_history member
    have setup : before.setup = s := same
    have frame (part : Part) (other : part ∉ action.touches s.trigger) :
        before.Agree (before.act action).2 part := before.agree_act action (setup ▸ other)
    refine ⟨frame, fun untouched => eq_of_agree fun part => frame part ?_, fun kept => ?_⟩
    · rw [show action.touches s.trigger = [] from untouched]
      exact List.not_mem_nil
    · rw [← setup]
      exact before.register_act kept
  · rintro any rfl timer?
    exact ⟨fun part other => any.agree_pollNextKey timer? other, any.register_pollNextKey timer?⟩
  · obtain ⟨⟨name, setup⟩, scope, gap⟩ := d.kept_afterAll actions
    refine ⟨setup.symm, scope, gap, ?_⟩
    rw [descriptor, descriptor, ← name, ← setup]
  · intro asked lists kept
    have listed := d.asked_afterAll lists actions kept
    rwa [sum_reads] at listed

end Device

/--
A polled card whose signal is raised. The first call meets a failed read, a locked reading and a
key, and the second one the same key, which is held back; neither serves the signal.
-/
theorem actions_keep_to_parts_bt848 :
    let latch : Latch := { word := 0x1300 }
    let d := Device.start "bt848" bt848 latch (.ofTicks 1)
    let actions : List (Device.Action Latch) := [.changeRegister Latch.queueFailure,
      .changeRegister (·.queueWord 0x9300), .notify, .acquireFromHost, .nextKey 5, .nextKey 3,
      .tryKey, .reset]
    (∀ e ∈ d.history actions, Device.Part.card ∉ e.action.touches .polled ∧
      e.before.Agree e.after .card) ∧
    d.Agree (d.pollNextKey none).2.2 .signal ∧ d.setup = bt848 ∧
    (d.history actions).map Device.Event.reads = [0, 0, 0, 0, 3, 2, 1, 0] ∧
    (d.afterAll actions).host = { users := 1, notified := true } ∧
    (d.afterAll actions).descriptor = d.descriptor ∧
    Register.Lists Latch.asked ∧ (d.afterAll actions).receiver.register.asked =
      List.replicate 6 0 := by
  intro latch d actions
  obtain ⟨events, polls, ⟨-, -, -, descriptor⟩, reads⟩ :=
    Device.actions_keep_to_parts "bt848" bt848 latch (.ofTicks 1) actions
  have lists : Register.Lists Latch.asked := Latch.asked_read
  have kept : ∀ change, .changeRegister change ∈ actions → ∀ register : Latch,
      (change register).asked = register.asked := by
    intro change member register
    obtain rfl | rfl : change = Latch.queueFailure ∨ change = (·.queueWord 0x9300) := by
      simpa [actions] using member
    · rfl
    · rfl
  have listed := reads Latch.asked lists kept
  have total : actions.countP Device.Action.isSample +
      ((d.history actions).map Device.Event.nextKeyReads).sum = 6 := by decide +kernel
  refine ⟨fun e member => ?_, (polls d rfl none).1 .signal (by decide), rfl,
    by decide +kernel, by decide +kernel, descriptor, lists, ?_⟩
  · have untouched : Device.Part.card ∉ e.action.touches .polled :=
      Device.card_not_mem_touches e.action .polled
    exact ⟨untouched, (events e member).1 .card untouched⟩
  · rw [listed, total]
    rfl

end RemoteKeys
