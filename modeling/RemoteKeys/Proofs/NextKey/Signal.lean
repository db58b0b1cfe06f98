import Mathlib.Algebra.Ring.Nat
import RemoteKeys.Proofs.Cards
import RemoteKeys.Proofs.Device.History

/-!
# The signal of an interrupt driven device

The host's signal is one flag: a card raises it, and whoever looks for it and finds it raised serves
it. A call for the next key on an interrupt driven device looks for it at every poll. The first poll
that finds it serves it and reads the register once; no later poll of the call finds anything, since
nobody raises it in between.

## Main result

`Device.signal_served_once`: the signal is raised exactly while a notification has not been served,
every one that is served by a call makes for one read, and the call reports what the hold-off let
through.

## Proof strategy

`Device.notified_act` says once what an action does to the flag. Both statements on whole histories
follow from it by induction over the actions: which notification is still to be served, and that
calls serve no more than were raised.
-/

namespace RemoteKeys

private theorem Setup.periodMs?_interrupt {s : Setup} (interrupt : s.trigger = .interrupt) :
    s.periodMs? = none := by
  unfold trigger at interrupt
  unfold periodMs? rate?
  split at interrupt
  · cases interrupt
  · rfl

/-- Where every code is held back, a reading changes the memory by its report only. -/
theorem Setup.observe_everyCode {s : Setup} {h : Holdoff} (scope : h.scope = .everyCode)
    (reading : Option Word) (now : Instant) : (s.observe h reading now).2 =
      match (s.observe h reading now).1.key? with
      | none => h
      | some code => h.report code now := by
  cases reading with
  | none => rfl
  | some raw =>
    cases decoded : s.decode raw with
    | none => simp [observe, decoded, Outcome.key?, Holdoff.disturb_of_everyCode scope]
    | some code =>
      by_cases holds : h.Holds code now
      · simp [observe, decoded, Outcome.key?, Holdoff.offer_of_holds holds]
      · simp [observe, decoded, Outcome.key?, Holdoff.offer_of_not_holds holds]

namespace Device

variable {ρ ε : Type}

/-- The device with its signal served. -/
def serve (d : Device ρ) : Device ρ := { d with host := { d.host with notified := false } }

private theorem serve_eq_self {d : Device ρ} (quiet : d.host.notified = false) : d.serve = d := by
  unfold serve
  rw [← quiet]

/-- The action looks for the signal, and serves it where it is raised. -/
def Action.LooksForSignal : Action ρ → Prop
  | .takeSignal => True
  | .nextKey polls => 1 ≤ polls
  | _ => False

def Action.isNotify : Action ρ → Bool
  | .notify => true
  | _ => false

private theorem Action.isNotify_of_looksForSignal {action : Action ρ}
    (looks : action.LooksForSignal) :
    action.isNotify = false := by
  cases action with
  | takeSignal | nextKey _ => rfl
  | _ => cases looks

/-- The signal was raised before the action, and is served after it. -/
def Event.Consumes (e : Event ρ) : Prop :=
  e.before.host.notified = true ∧ e.after.host.notified = false

/-- A notification stands among the events, and nothing served it after that. -/
def Unserved (events : List (Event ρ)) : Prop :=
  ∃ earlier e later, events = earlier ++ e :: later ∧ e.action = .notify ∧ ∀ x ∈ later, ¬ x.Consumes

/-- Number of reads that a call for the next key makes, which is one where it serves the signal. -/
def Event.callReads (e : Event ρ) : Nat :=
  match e.action with
  | .nextKey (_ + 1) => if e.before.host.notified then 1 else 0
  | _ => 0

private theorem Event.callReads_eq_zero_or_one (e : Event ρ) : e.callReads = 0 ∨
    e.callReads = 1 ∧ e.before.host.notified = true ∧ e.action.LooksForSignal := by
  unfold callReads
  split
  · next polls call =>
    rw [call]
    split
    · next raised => exact .inr ⟨rfl, raised, Nat.succ_pos polls⟩
    · exact .inl rfl
  · exact .inl rfl

variable [Register ρ ε]

/-- How a call for the next key goes that is polled at all. -/
structure Event.AnswersCall (e : Event ρ) : Prop where
  /-- Where the signal is not raised, nothing happens. -/
  quiet : e.before.host.notified = false → e.reply = .nextKey none ∧ e.after = e.before
  /-- Where it is raised, it is served, and the first poll answers what one look for a key gives. -/
  raised : e.before.host.notified = true →
    e.reply = .nextKey (e.before.serve.tryKey.1.map fun code => (code, 1)) ∧
      e.after = e.before.serve.tryKey.2
  /-- The register is what so many reads leave of it. -/
  reads : e.after.receiver.register =
    (Register.afterRead e.before.setup.minor)^[e.callReads] e.before.receiver.register
  /-- Without an answer, no code was let through. -/
  kept : e.reply = .nextKey none → e.after.receiver.holdoff = e.before.receiver.holdoff
  reported : ∀ code polls, e.reply = .nextKey (some (code, polls)) →
    e.after.receiver.holdoff = e.before.receiver.holdoff.report code e.before.clock

/-! ### A call for the next key -/

theorem pollNextKey_interrupt {d : Device ρ} (interrupt : d.setup.trigger = .interrupt)
    (timer? : Option Timer) :
    d.pollNextKey timer? =
      if d.host.notified then (d.serve.tryKey.1, none, d.serve.tryKey.2) else (none, none, d) := by
  have no_period := Setup.periodMs?_interrupt interrupt
  cases raised : d.host.notified with
  | true => simp only [pollNextKey, no_period, Host.take, raised, if_true, serve]
  | false =>
    have same := serve_eq_self raised
    simp only [serve] at same
    simp only [pollNextKey, no_period, Host.take, raised, same, Bool.false_eq_true, if_false]

private theorem pollUpTo_quiet {d : Device ρ} (interrupt : d.setup.trigger = .interrupt)
    (quiet : d.host.notified = false) (timer? : Option Timer) (spent left : Nat) :
    d.pollUpTo timer? spent left = (none, d) := by
  induction left generalizing timer? spent with
  | zero => rfl
  | succ left ih =>
    rw [pollUpTo, pollNextKey_interrupt interrupt, quiet]
    exact ih none (spent + 1)

theorem nextKey_quiet {d : Device ρ} (interrupt : d.setup.trigger = .interrupt)
    (quiet : d.host.notified = false) (polls : Nat) : d.nextKey polls = (none, d) :=
  pollUpTo_quiet interrupt quiet none 0 polls

theorem nextKey_raised {d : Device ρ} (interrupt : d.setup.trigger = .interrupt)
    (raised : d.host.notified = true) (polls : Nat) :
    d.nextKey (polls + 1) = (d.serve.tryKey.1.map fun code => (code, 1), d.serve.tryKey.2) := by
  rw [nextKey, pollUpTo, pollNextKey_interrupt interrupt, raised, if_pos rfl]
  rcases tried : d.serve.tryKey with ⟨_ | code, e⟩
  · -- The look served the signal, so that the other polls find nothing.
    obtain rfl : d.serve.tryKey.2 = e := congrArg Prod.snd tried
    have driven : d.serve.tryKey.2.setup.trigger = .interrupt := interrupt
    have served : d.serve.tryKey.2.host.notified = false := rfl
    exact pollUpTo_quiet driven served none 1 polls
  · rfl

private theorem holdoff_tryKey {d : Device ρ} (scope : d.receiver.holdoff.scope = .everyCode) :
    d.tryKey.2.receiver.holdoff =
      match d.tryKey.1 with
      | none => d.receiver.holdoff
      | some code => d.receiver.holdoff.report code d.clock :=
  Setup.observe_everyCode scope _ d.clock

private theorem answersCall {d : Device ρ} (interrupt : d.setup.trigger = .interrupt)
    (scope : d.receiver.holdoff.scope = .everyCode) (polls : Nat) :
    (d.event (.nextKey (polls + 1))).AnswersCall := by
  cases raised : d.host.notified with
  | false =>
    have call := nextKey_quiet interrupt raised (polls + 1)
    have event : d.event (.nextKey (polls + 1)) = ⟨d, .nextKey (polls + 1), .nextKey none, d⟩ := by
      simp only [Device.event, act, call]
    rw [event]
    exact {
      quiet := fun _ => ⟨rfl, rfl⟩
      raised := fun other => by rw [raised] at other; cases other
      reads := by simp [Event.callReads, raised]
      kept := fun _ => rfl
      reported := by rintro _ _ ⟨⟩ }
  | true =>
    have call := nextKey_raised interrupt raised polls
    have event : d.event (.nextKey (polls + 1)) = ⟨d, .nextKey (polls + 1),
        .nextKey (d.serve.tryKey.1.map fun code => (code, 1)), d.serve.tryKey.2⟩ := by
      simp only [Device.event, act, call]
    have memory := holdoff_tryKey (d := d.serve) scope
    rw [event]
    exact {
      quiet := fun other => by rw [raised] at other; cases other
      raised := fun _ => ⟨rfl, rfl⟩
      reads := by
        have once : Event.callReads (ρ := ρ) ⟨d, .nextKey (polls + 1),
            .nextKey (d.serve.tryKey.1.map fun code => (code, 1)),
            d.serve.tryKey.2⟩ = 1 := if_pos raised
        rw [once]
        exact (d.serve.afterReads_sample d.clock).register
      kept := fun answer => by
        have no_key : d.serve.tryKey.1 = none := by simpa using answer
        rw [no_key] at memory
        exact memory
      reported := fun code count answer => by
        have key : d.serve.tryKey.1 = some code := by
          obtain ⟨_, found, pair⟩ := Option.map_eq_some_iff.mp (Reply.nextKey.inj answer)
          rw [found, (Prod.mk.inj pair).1]
        rw [key] at memory
        exact memory }

/-! ### What an action does to the signal -/

/-- A notification raises the signal, looking for it serves it, and nothing else touches it. -/
theorem notified_act {d : Device ρ} (interrupt : d.setup.trigger = .interrupt) (action : Action ρ) :
    (d.act action).2.host.notified = true ↔
      action.isNotify = true ∨ (d.host.notified = true ∧ ¬ action.LooksForSignal) := by
  cases action with
  | nextKey polls =>
    -- A call that is never polled does nothing, and every other one looks at its first poll.
    cases polls with
    | zero => simp [act, nextKey, pollUpTo, Action.isNotify, Action.LooksForSignal]
    | succ polls =>
      cases raised : d.host.notified with
      | false => simp [act, nextKey_quiet interrupt raised, raised, Action.isNotify]
      | true =>
        simp [act, nextKey_raised interrupt raised, tryKey, sample, serve, Action.isNotify,
          Action.LooksForSignal]
  | notify => simp [act, Host.notify, Action.isNotify]
  | takeSignal => simp [act, Host.take, Action.isNotify, Action.LooksForSignal]
  | changeRegister _ | setClock _ | sample _ | keyAt _ | tryKey | decode _ | reset | acquire
  | acquireFromHost | release | askSignal =>
    simp [act, sample, tryKey, Device.reset, Device.acquire, Host.acquire, Host.release,
      Action.isNotify, Action.LooksForSignal]

private theorem consumes_event_iff {d : Device ρ} (interrupt : d.setup.trigger = .interrupt)
    (action : Action ρ) :
    (d.event action).Consumes ↔ d.host.notified = true ∧ action.LooksForSignal := by
  have after := notified_act interrupt action
  have apart (looks : action.LooksForSignal) : ¬ action.isNotify = true := by
    rw [Action.isNotify_of_looksForSignal looks]
    decide
  rw [Event.Consumes, Device.event, ← Bool.not_eq_true, after]
  tauto

private theorem callReads_le {d : Device ρ} (interrupt : d.setup.trigger = .interrupt)
    (action : Action ρ) :
    (d.event action).callReads + (d.act action).2.host.notified.toNat ≤
      d.host.notified.toNat + if action.isNotify then 1 else 0 := by
  have after := notified_act interrupt action
  rcases (d.event action).callReads_eq_zero_or_one with reads | ⟨reads, raised, looks⟩
    <;> rw [reads]
  · cases raised_after : (d.act action).2.host.notified with
    | false => exact Nat.zero_le _
    | true => rcases after.mp raised_after with notify | ⟨raised, -⟩ <;> simp [*]
  · -- The read used up the signal that was raised, and only a notification raises it again.
    have raised_before : d.host.notified = true := raised
    cases raised_after : (d.act action).2.host.notified with
    | false => simp [raised_before]
    | true =>
      rcases after.mp raised_after with notify | ⟨-, unseen⟩
      · simp [raised_before, notify]
      · exact absurd looks unseen

/-! ### Whole histories -/

private theorem unserved_cons {e : Event ρ} {rest : List (Event ρ)} :
    Unserved (e :: rest) ↔ Unserved rest ∨ (e.action = .notify ∧ ∀ x ∈ rest, ¬ x.Consumes) := by
  constructor
  · rintro ⟨_ | ⟨first, earlier⟩, raising, later, split, notify, kept⟩
    · obtain ⟨rfl, rfl⟩ := List.cons.inj split
      exact .inr ⟨notify, kept⟩
    · obtain ⟨rfl, rfl⟩ := List.cons.inj split
      exact .inl ⟨earlier, raising, later, rfl, notify, kept⟩
  · rintro (⟨earlier, raising, later, rfl, notify, kept⟩ | ⟨notify, kept⟩)
    · exact ⟨e :: earlier, raising, later, rfl, notify, kept⟩
    · exact ⟨[], e, rest, rfl, notify, kept⟩

private theorem notified_afterAll {d : Device ρ} (interrupt : d.setup.trigger = .interrupt)
    (actions : List (Action ρ)) :
    (d.afterAll actions).host.notified = true ↔
      Unserved (d.history actions) ∨
        (d.host.notified = true ∧ ∀ x ∈ d.history actions, ¬ x.Consumes) := by
  -- A signal that is raised when the history begins counts too, until something serves it.
  induction actions generalizing d with
  | nil => simp [afterAll, history, Unserved]
  | cons action rest ih =>
    have kept : (d.act action).2.setup.trigger = .interrupt := by
      rw [(d.act_kept action).1, interrupt]
    have consumes := consumes_event_iff interrupt action
    have raised : action.isNotify = true ↔ (d.event action).action = .notify := by
      cases action <;> simp [Action.isNotify, Device.event]
    rw [afterAll, List.foldl_cons, ← afterAll, ih kept, history, unserved_cons,
      notified_act interrupt, raised]
    simp only [List.mem_cons, forall_eq_or_imp, consumes]
    tauto

private theorem sum_callReads_le {d : Device ρ} (interrupt : d.setup.trigger = .interrupt)
    (actions : List (Action ρ)) :
    ((d.history actions).map Event.callReads).sum + (d.afterAll actions).host.notified.toNat ≤
      d.host.notified.toNat + actions.countP Action.isNotify := by
  -- While it is raised, the signal itself stands for a notification that no read has used up.
  induction actions generalizing d with
  | nil => simp [history, afterAll]
  | cons action rest ih =>
    have kept : (d.act action).2.setup.trigger = .interrupt := by
      rw [(d.act_kept action).1, interrupt]
    have first := callReads_le interrupt action
    have later := ih kept
    rw [history, List.map_cons, List.sum_cons, afterAll, List.foldl_cons, ← afterAll,
      List.countP_cons]
    omega

/-! ### Main result -/

/--
An interrupt driven device, whatever is done to it and in whatever order: the signal is raised
exactly while a notification came after the last action that served it; a wait or a call serves it
where it is raised, and nothing else does; a call that finds it raised reads the register once and
answers the code that is let through, if any, and one that does not find it raised does nothing; and
all calls together read no more often than there were notifications.
-/
theorem signal_served_once (name : String) {s : Setup} (interrupt : s.trigger = .interrupt)
    (register : ρ) (clock : Instant) (actions : List (Action ρ)) :
    let d := Device.start name s register clock
    ((d.afterAll actions).host.notified = true ↔ Unserved (d.history actions)) ∧
    (∀ e ∈ d.history actions,
      (e.Consumes ↔ e.before.host.notified = true ∧ e.action.LooksForSignal) ∧
      (e.action = .takeSignal → e.reply = .ready e.before.host.notified) ∧
      (∀ polls, 1 ≤ polls → e.action = .nextKey polls → e.AnswersCall)) ∧
    ((d.history actions).map Event.callReads).sum ≤ actions.countP Action.isNotify := by
  intro d
  refine ⟨?_, ?_, ?_⟩
  · simpa [d, start] using notified_afterAll (d := d) interrupt actions
  · intro e member
    obtain ⟨before, action, rfl, setup, scope⟩ := exists_event_of_mem_history member
    have driven : before.setup.trigger = .interrupt := by rw [setup]; exact interrupt
    refine ⟨consumes_event_iff driven action, ?_, ?_⟩
    · intro wait
      obtain rfl : action = .takeSignal := wait
      rfl
    · intro polls polled call
      obtain rfl : action = .nextKey polls := call
      obtain ⟨left, rfl⟩ : ∃ left, polls = left + 1 := ⟨polls - 1, by omega⟩
      exact answersCall driven (scope.trans (Setup.holdoffScope_interrupt interrupt)) left
  · have served := sum_callReads_le (d := d) interrupt actions
    have quiet : d.host.notified.toNat = 0 := rfl
    omega

end Device

/--
Two notifications make for one read. A wait serves the next one, so that the call after it finds
nothing, and the code of the last call is held back.
-/
theorem signal_served_once_cx88 :
    let d := Device.start "cx88" cx88 ({ word := 0x88000 } : Latch) (.ofTicks 1)
    let actions : List (Device.Action Latch) := [.notify, .notify, .setClock (.ofMillis 1000),
      .nextKey 3, .nextKey 2, .notify, .takeSignal, .takeSignal, .nextKey 1, .notify,
      .setClock (.ofMillis 1399), .nextKey 5, .notify]
    cx88.trigger = .interrupt ∧
    (d.history actions).map Device.Event.reply = [.done, .done, .time (.ofMillis 1000),
      .nextKey (some (17, 1)), .nextKey none, .done, .ready true, .ready false, .nextKey none,
      .done, .time (.ofMillis 1399), .nextKey none, .done] ∧
    (d.history actions).map Device.Event.callReads = [0, 0, 0, 1, 0, 0, 0, 0, 0, 0, 0, 1, 0] ∧
    (d.afterAll actions).host.notified = true ∧ Device.Unserved (d.history actions) ∧
    ((d.history actions).map Device.Event.callReads).sum ≤
      actions.countP Device.Action.isNotify := by
  intro d actions
  have interrupt : cx88.trigger = .interrupt := by decide
  obtain ⟨raised_iff, -, served⟩ :=
    Device.signal_served_once "cx88" interrupt ({ word := 0x88000 } : Latch) (.ofTicks 1) actions
  refine ⟨interrupt, by decide +kernel, by decide +kernel, by decide +kernel, ?_, served⟩
  exact raised_iff.mp (by decide +kernel)

end RemoteKeys
