import Mathlib.Data.List.Nodup
import RemoteKeys.Bench
import RemoteKeys.Proofs.Device.Frame

/-!
# Guards and the count of users

A device hands out a guard for each of its users and counts them. A guard comes from the device or
from its host, and it is released or dropped, once: whoever held it has it no more. The steps of a
bench with their answers are a ledger of guards that knows nothing of the count.

## Main result

`Bench.users_counted`: at every moment the count is the number of guards that were handed out and
have not come back.

## Proof strategy

`users_step` says once what a step does to the guards and to the count: it hands a guard out, takes
one back, refuses one, or does none of that. Each of these keeps the ledger and the bench in
agreement (`Ledger`), and from that a whole script does (`Ledger.after`).
-/

namespace RemoteKeys.Bench

/-! ### The ledger -/

/-- The guard that a step handed out. -/
def handedOut? : Step × Reply → Option Nat
  | (_, .guard guard) => some guard
  | _ => none

/-- The guard that came back in a step, whichever way it did. -/
def givenBack? : Step × Reply → Option Nat
  | (.release guard, .device .done) | (.drop guard, .device .done) => some guard
  | _ => none

/-- The steps of a script with their answers. -/
def answers (b : Bench) (script : List Step) : List (Step × Reply) :=
  script.zip ((b.run script).map Prod.fst)

/-- The guards that were handed out and have not come back. -/
def alive (ledger : List (Step × Reply)) : List Nat :=
  (ledger.filterMap handedOut?).filter fun guard => guard ∉ ledger.filterMap givenBack?

/-- The step that does the same for its user: a guard is a guard, from wherever it is, and so is its
end. -/
def Step.plain : Step → Step
  | .acquireFromHost => .acquire
  | .drop guard => .release guard
  | step => step

/-! ### One step -/

/-- The bench hands out a guard, takes back one that is held, refuses one that is not, or does none
of that. -/
inductive UsersStep (b : Bench) (s : Step) : Reply → Bench → Prop
  | handOut {after : Bench} (acquires : s.plain = .acquire)
      (guards : after.guards = b.guards ++ [true])
      (users : after.device.host.users = b.device.host.users + 1) :
      UsersStep b s (.guard b.guards.length) after
  | takeBack {guard : Nat} {after : Bench} (releases : s.plain = .release guard)
      (held : b.guards[guard]? = some true) (guards : after.guards = b.guards.set guard false)
      (users : after.device.host.users = b.device.host.users - 1) :
      UsersStep b s (.device .done) after
  | refuse {guard : Nat} (releases : s.plain = .release guard)
      (unheld : b.guards[guard]? ≠ some true) :
      UsersStep b s .noGuard b
  | other {reply : Reply} {after : Bench} (acquires : s.plain ≠ .acquire)
      (releases : ∀ guard, s.plain ≠ .release guard) (guards : after.guards = b.guards)
      (users : after.device.host.users = b.device.host.users)
      (unguarded : ∀ guard, reply ≠ .guard guard) :
      UsersStep b s reply after

private theorem users_act (b : Bench) {action : Device.Action Latch}
    (untouched : ∀ trigger, Device.Part.users ∉ action.touches trigger) :
    (b.act action).2.device.host.users = b.device.host.users := by
  have users : b.device.host.users = (b.device.act action).2.host.users :=
    b.device.agree_act action (untouched _)
  exact users.symm

private theorem users_step (b : Bench) (s : Step) : UsersStep b s (b.step s).1 (b.step s).2 := by
  have takeBack {s : Step} {guard : Nat} (releases : s.plain = .release guard) :
      UsersStep b s (b.takeBack guard).1 (b.takeBack guard).2 := by
    unfold Bench.takeBack
    split
    · next held => exact .takeBack releases held rfl rfl
    · next unheld => exact .refuse releases unheld
  cases s with
  | acquire | acquireFromHost => exact .handOut rfl rfl rfl
  | release guard | drop guard => exact takeBack rfl
  -- Every other step is an action on the device alone that does not touch the users.
  | nextKey polls =>
    refine .other (by simp [Step.plain]) (by simp [Step.plain]) rfl (b.users_act ?_)
      (by simp [step, act])
    rintro (_ | _) <;> simp [Device.Action.touches, Device.callTouches]
  | _ =>
    exact .other (by simp [Step.plain]) (by simp [Step.plain]) rfl
      (b.users_act (by simp [Device.Action.touches])) (by simp [step, act])

namespace UsersStep

variable {b after : Bench} {s : Step} {reply : Reply} {guard : Nat}

private theorem of_acquire (stepped : UsersStep b s reply after) (acquires : s.plain = .acquire) :
    reply = .guard b.guards.length ∧ after.device.host.users = b.device.host.users + 1 := by
  cases stepped with
  | handOut _ _ users => exact ⟨rfl, users⟩
  | takeBack releases | refuse releases =>
    rw [acquires] at releases
    cases releases
  | other keeps => exact absurd acquires keeps

private theorem of_release (stepped : UsersStep b s reply after)
    (releases : s.plain = .release guard) :
    (b.guards[guard]? = some true ∧ reply = .device .done ∧
        after.device.host.users = b.device.host.users - 1) ∨
      (b.guards[guard]? ≠ some true ∧ reply = .noGuard ∧ after = b) := by
  cases stepped with
  | handOut acquires =>
    rw [releases] at acquires
    cases acquires
  | takeBack same held _ users =>
    obtain rfl := Step.release.inj (releases.symm.trans same)
    exact .inl ⟨held, rfl, users⟩
  | refuse same unheld =>
    obtain rfl := Step.release.inj (releases.symm.trans same)
    exact .inr ⟨unheld, rfl, rfl⟩
  | other _ keeps => exact absurd releases (keeps guard)

private theorem of_other (stepped : UsersStep b s reply after) (acquires : s.plain ≠ .acquire)
    (releases : ∀ guard, s.plain ≠ .release guard) :
    after.device.host.users = b.device.host.users := by
  cases stepped with
  | handOut same => exact absurd same acquires
  | takeBack same | refuse same => exact absurd same (releases _)
  | other _ _ _ users => exact users

end UsersStep

/-! ### The ledger and the bench -/

/-- What the ledger says of the guards and of the count of users. -/
structure Ledger (b : Bench) (ledger : List (Step × Reply)) : Prop where
  out : ledger.filterMap handedOut? = List.range b.guards.length
  back : (ledger.filterMap givenBack?).Nodup
  back_lt : ∀ guard ∈ ledger.filterMap givenBack?, guard < b.guards.length
  alive_iff : ∀ guard, guard ∈ alive ledger ↔ b.guards[guard]? = some true
  users : b.device.host.users = (alive ledger).length
  held : b.held = (alive ledger).length

private theorem filterMap_concat_of_none {number? : Step × Reply → Option Nat}
    {ledger : List (Step × Reply)} {entry : Step × Reply} (silent : number? entry = none) :
    (ledger ++ [entry]).filterMap number? = ledger.filterMap number? := by
  rw [List.filterMap_append, List.filterMap_cons_none silent, List.filterMap_nil, List.append_nil]

private theorem filterMap_concat_of_some {number? : Step × Reply → Option Nat}
    {ledger : List (Step × Reply)} {entry : Step × Reply} {guard : Nat}
    (numbered : number? entry = some guard) :
    (ledger ++ [entry]).filterMap number? = ledger.filterMap number? ++ [guard] := by
  rw [List.filterMap_append, List.filterMap_cons_some numbered, List.filterMap_nil]

private theorem alive_concat_handOut {ledger : List (Step × Reply)} {entry : Step × Reply}
    {guard : Nat} (out : handedOut? entry = some guard) (back : givenBack? entry = none)
    (fresh : guard ∉ ledger.filterMap givenBack?) :
    alive (ledger ++ [entry]) = alive ledger ++ [guard] := by
  rw [alive, filterMap_concat_of_some out, filterMap_concat_of_none back, List.filter_append,
    List.filter_cons_of_pos (by simpa using fresh), List.filter_nil, alive]

private theorem alive_concat_takeBack {ledger : List (Step × Reply)} {entry : Step × Reply}
    {guard : Nat} (out : handedOut? entry = none) (back : givenBack? entry = some guard) :
    alive (ledger ++ [entry]) = (alive ledger).filter (· != guard) := by
  rw [alive, filterMap_concat_of_none out, filterMap_concat_of_some back, alive, List.filter_filter]
  apply List.filter_congr
  intro other _
  rw [Bool.eq_iff_iff]
  simp [and_comm]

private theorem alive_concat_silent {ledger : List (Step × Reply)} {entry : Step × Reply}
    (out : handedOut? entry = none) (back : givenBack? entry = none) :
    alive (ledger ++ [entry]) = alive ledger := by
  rw [alive, filterMap_concat_of_none out, filterMap_concat_of_none back, alive]

private theorem givenBack?_of_plain {s : Step} {guard : Nat} (releases : s.plain = .release guard) :
    givenBack? (s, .device .done) = some guard := by
  cases s <;> simp_all [Step.plain, givenBack?]

private theorem givenBack?_eq_none {s : Step} (keeps : ∀ guard, s.plain ≠ .release guard)
    (reply : Reply) :
    givenBack? (s, reply) = none := by
  cases s with
  | release guard | drop guard => exact absurd rfl (keeps guard)
  | _ => rfl

private theorem handedOut?_eq_none {s : Step} {reply : Reply}
    (unguarded : ∀ guard, reply ≠ .guard guard) :
    handedOut? (s, reply) = none := by
  cases reply with
  | guard guard => exact absurd rfl (unguarded guard)
  | _ => rfl

namespace Ledger

variable {b after : Bench} {s : Step} {reply : Reply} {ledger : List (Step × Reply)}

private theorem nodup_alive (kept : Ledger b ledger) : (alive ledger).Nodup := by
  rw [alive, kept.out]
  exact List.nodup_range.filter _

private theorem silent (kept : Ledger b ledger) (out : handedOut? (s, reply) = none)
    (back : givenBack? (s, reply) = none) (guards : after.guards = b.guards)
    (users : after.device.host.users = b.device.host.users) :
    Ledger after (ledger ++ [(s, reply)]) := by
  refine ⟨?_, ?_, ?_, ?_, ?_, ?_⟩
  · rw [filterMap_concat_of_none out, kept.out, guards]
  · rw [filterMap_concat_of_none back]
    exact kept.back
  · rw [filterMap_concat_of_none back, guards]
    exact kept.back_lt
  · rw [alive_concat_silent out back, guards]
    exact kept.alive_iff
  · rw [alive_concat_silent out back, users]
    exact kept.users
  · rw [alive_concat_silent out back, Bench.held, guards]
    exact kept.held

private theorem handOut (kept : Ledger b ledger) (acquires : s.plain = .acquire)
    (guards : after.guards = b.guards ++ [true])
    (users : after.device.host.users = b.device.host.users + 1) :
    Ledger after (ledger ++ [(s, .guard b.guards.length)]) := by
  have out : handedOut? (s, .guard b.guards.length) = some b.guards.length := rfl
  have back : givenBack? (s, .guard b.guards.length) = none :=
    givenBack?_eq_none (by simp [acquires]) _
  have fresh : b.guards.length ∉ ledger.filterMap givenBack? := fun member =>
    Nat.lt_irrefl _ (kept.back_lt _ member)
  have grown : alive (ledger ++ [(s, .guard b.guards.length)]) =
      alive ledger ++ [b.guards.length] :=
    alive_concat_handOut out back fresh
  have length : after.guards.length = b.guards.length + 1 := by rw [guards, List.length_append]; rfl
  refine ⟨?_, ?_, ?_, ?_, ?_, ?_⟩
  · rw [filterMap_concat_of_some out, kept.out, length, List.range_succ]
  · rw [filterMap_concat_of_none back]
    exact kept.back
  · rw [filterMap_concat_of_none back, length]
    exact fun guard member => Nat.lt_succ_of_lt (kept.back_lt guard member)
  · intro guard
    rw [grown, guards, List.mem_append, List.mem_singleton, kept.alive_iff]
    -- Older guards stay where they are, and behind the new one there is none.
    rcases Nat.lt_trichotomy guard b.guards.length with old | rfl | beyond
    · rw [List.getElem?_append_left old]
      exact or_iff_left (Nat.ne_of_lt old)
    · simp
    · have none_there : (b.guards ++ [true])[guard]? = none := by
        rw [List.getElem?_eq_none_iff, List.length_append]
        exact beyond
      have none_before : b.guards[guard]? = none :=
        List.getElem?_eq_none_iff.mpr (Nat.le_of_lt beyond)
      simp [none_there, none_before, Nat.ne_of_gt beyond]
  · rw [grown, users, kept.users, List.length_append]
    rfl
  · rw [grown, Bench.held, guards, List.count_append, ← Bench.held, kept.held, List.length_append]
    rfl

private theorem takeBack {guard : Nat} (kept : Ledger b ledger)
    (releases : s.plain = .release guard) (held : b.guards[guard]? = some true)
    (guards : after.guards = b.guards.set guard false)
    (users : after.device.host.users = b.device.host.users - 1) :
    Ledger after (ledger ++ [(s, .device .done)]) := by
  have out : handedOut? (s, .device .done) = none := rfl
  have back : givenBack? (s, .device .done) = some guard := givenBack?_of_plain releases
  have member : guard ∈ alive ledger := (kept.alive_iff guard).mpr held
  -- No guard is listed twice, so that the one that comes back is erased wherever it stands.
  have shrunk : alive (ledger ++ [(s, .device .done)]) = (alive ledger).erase guard := by
    rw [alive_concat_takeBack out back, kept.nodup_alive.erase_eq_filter]
  have length : after.guards.length = b.guards.length := by rw [guards, List.length_set]
  have inside : guard < b.guards.length := (List.getElem?_eq_some_iff.mp held).1
  refine ⟨?_, ?_, ?_, ?_, ?_, ?_⟩
  · rw [filterMap_concat_of_none out, kept.out, length]
  · have unreturned : guard ∉ ledger.filterMap givenBack? :=
      of_decide_eq_true (List.mem_filter.mp member).2
    rw [filterMap_concat_of_some back, ← List.concat_eq_append]
    exact kept.back.concat unreturned
  · rw [filterMap_concat_of_some back, length]
    intro other listed
    rcases List.mem_append.mp listed with before | now
    · exact kept.back_lt other before
    · rwa [List.mem_singleton.mp now]
  · intro other
    rw [shrunk, guards, kept.nodup_alive.mem_erase_iff, kept.alive_iff, List.getElem?_set]
    by_cases same : guard = other
    · simp [same]
    · simp [same, Ne.symm same]
  · rw [shrunk, users, kept.users, List.length_erase_of_mem member]
  · have counted : b.guards[guard] = true := (List.getElem?_eq_some_iff.mp held).2
    rw [shrunk, Bench.held, guards, List.count_set inside, counted, ← Bench.held, kept.held,
      List.length_erase_of_mem member]
    rfl

end Ledger

/-- A ledger that is kept goes on being kept. -/
theorem UsersStep.ledger {b after : Bench} {s : Step} {reply : Reply} {ledger : List (Step × Reply)}
    (stepped : UsersStep b s reply after) (kept : Ledger b ledger) :
    Ledger after (ledger ++ [(s, reply)]) := by
  cases stepped with
  | handOut acquires guards users => exact kept.handOut acquires guards users
  | takeBack releases held guards users => exact kept.takeBack releases held guards users
  | refuse releases unheld =>
    have back : givenBack? (s, .noGuard) = none := by cases s <;> rfl
    exact kept.silent rfl back rfl rfl
  | other acquires releases guards users unguarded =>
    exact kept.silent (handedOut?_eq_none unguarded) (givenBack?_eq_none releases _) guards users

private theorem Ledger.after {b : Bench} {ledger : List (Step × Reply)} (kept : Ledger b ledger)
    (script : List Step) :
    Ledger (b.after script) (ledger ++ b.answers script) := by
  -- Over the script: its first step is the next entry, and the rest is kept from there.
  induction script generalizing b ledger with
  | nil =>
    rw [answers, List.zip_nil_left, List.append_nil]
    exact kept
  | cons s rest ih =>
    have later := ih ((users_step b s).ledger kept)
    rwa [List.append_assoc] at later

private theorem ledger_start (name : String) (s : Setup) (word : Word) (clock : Instant) :
    Ledger (start name s word clock) [] where
  out := rfl
  back := List.nodup_nil
  back_lt := by simp
  alive_iff := by simp [alive, start]
  users := rfl
  held := rfl

/-! ### Everything comes back -/

private theorem held_takeBack (b : Bench) (guard other : Nat) :
    (b.takeBack guard).2.guards[other]? = some true ↔
      other ≠ guard ∧ b.guards[other]? = some true := by
  unfold Bench.takeBack
  split
  · next held =>
    have inside : guard < b.guards.length := (List.getElem?_eq_some_iff.mp held).1
    rw [List.getElem?_set]
    by_cases same : guard = other
    · simp [same]
    · simp [same, Ne.symm same]
  · next unheld =>
    refine ⟨fun held => ⟨?_, held⟩, And.right⟩
    rintro rfl
    exact unheld held

private theorem held_foldl_takeBack (b : Bench) (guards : List Nat) (other : Nat) :
    (guards.foldl (fun b guard => (b.takeBack guard).2) b).guards[other]? = some true ↔
      other ∉ guards ∧ b.guards[other]? = some true := by
  induction guards generalizing b with
  | nil => simp
  | cons guard rest ih =>
    rw [List.foldl_cons, ih, held_takeBack, List.mem_cons, not_or, and_left_comm, and_assoc]

private theorem takeAllBack_eq_after (b : Bench) :
    b.takeAllBack = b.after ((List.range b.guards.length).map Step.release) := by
  rw [takeAllBack, after, List.foldl_map]
  rfl

private theorem Ledger.users_takeAllBack {b : Bench} {ledger : List (Step × Reply)}
    (kept : Ledger b ledger) :
    b.takeAllBack.device.host.users = 0 := by
  have all := kept.after ((List.range b.guards.length).map Step.release)
  rw [← takeAllBack_eq_after] at all
  rw [all.users, List.length_eq_zero_iff, List.eq_nil_iff_forall_not_mem]
  intro guard member
  -- A guard that is still held would be one that never was taken back.
  obtain ⟨untaken, held⟩ := (held_foldl_takeBack b _ guard).mp ((all.alive_iff guard).mp member)
  exact untaken (List.mem_range.mpr (List.getElem?_eq_some_iff.mp held).1)

/-! ### Any way of acquiring, any way of giving back -/

private theorem step_plain (b : Bench) (s : Step) : b.step s.plain = b.step s := by
  cases s <;> rfl

private theorem run_map_plain (b : Bench) (script : List Step) :
    b.run (script.map Step.plain) = b.run script := by
  induction script generalizing b with
  | nil => rfl
  | cons s rest ih => rw [List.map_cons, run, run, step_plain, ih]

/-! ### Main result -/

/--
A device with a host, used by any number of users in any way: some acquire it through the device and
some through its host, some release their guards and some drop them, and keys, signals, the clock
and the register go on in between. At every moment the host counts the guards that were handed out
and have not come back, and the device is in use while there are any. No guard is handed out twice
or comes back twice, and none comes back that was not handed out. Whatever is done next, an
acquisition hands out a new guard and adds one to the count; a guard that is still out comes back
and takes one from it, which is there to take; one that is not changes nothing; and nothing else
touches the count. Which of the two ways was taken in is not seen in any answer or any later state,
nor is which was taken out. When all guards have come back, the count is zero.
-/
theorem users_counted (name : String) (s : Setup) (word : Word) (clock : Instant)
    (script : List Step) :
    let b := Bench.start name s word clock
    let ledger := b.answers script
    let now := b.after script
    (now.device.host.users = (alive ledger).length ∧ now.held = (alive ledger).length ∧
      (now.device.host.InUse ↔ ∃ guard, guard ∈ alive ledger)) ∧
    ((ledger.filterMap handedOut?).Nodup ∧ (ledger.filterMap givenBack?).Nodup ∧
      ledger.filterMap givenBack? ⊆ ledger.filterMap handedOut?) ∧
    (∀ next : Step,
      match next.plain with
      | .acquire =>
        ∃ guard, guard ∉ ledger.filterMap handedOut? ∧ (now.step next).1 = .guard guard ∧
          (now.step next).2.device.host.users = now.device.host.users + 1
      | .release guard =>
        if guard ∈ alive ledger then
          (now.step next).1 = .device .done ∧
            (now.step next).2.device.host.users + 1 = now.device.host.users
        else now.step next = (.noGuard, now)
      | _ => (now.step next).2.device.host.users = now.device.host.users) ∧
    (∀ other : List Step, other.map Step.plain = script.map Step.plain →
      b.run other = b.run script) ∧
    now.takeAllBack.device.host.users = 0 := by
  intro b ledger now
  have kept : Ledger now ledger := (ledger_start name s word clock).after script
  refine ⟨⟨kept.users, kept.held, ?_⟩, ⟨?_, kept.back, ?_⟩, ?_, ?_, ?_⟩
  · rw [← List.length_pos_iff_exists_mem, ← kept.users, Nat.pos_iff_ne_zero, Host.InUse]
  · rw [kept.out]
    exact List.nodup_range
  · intro guard member
    rw [kept.out, List.mem_range]
    exact kept.back_lt guard member
  · intro next
    have stepped := users_step now next
    split
    · next acquires =>
      obtain ⟨reply, users⟩ := stepped.of_acquire acquires
      refine ⟨now.guards.length, ?_, reply, users⟩
      rw [kept.out, List.mem_range]
      exact Nat.lt_irrefl _
    · next guard releases =>
      rcases stepped.of_release releases with ⟨held, reply, users⟩ | ⟨unheld, reply, same⟩
      · -- A guard that is held is counted, so that the count can go down.
        have member : guard ∈ alive ledger := (kept.alive_iff guard).mpr held
        have counted : 0 < now.device.host.users := kept.users ▸ List.length_pos_of_mem member
        rw [if_pos member]
        exact ⟨reply, by omega⟩
      · rw [if_neg (mt (kept.alive_iff guard).mp unheld)]
        exact Prod.ext reply same
    · next acquires releases => exact stepped.of_other acquires releases
  · intro other same
    rw [← run_map_plain, same, run_map_plain]
  · exact kept.users_takeAllBack

/-- Three guards from both doors, the second of which its user tries to give back twice. -/
theorem users_counted_bt848 :
    let b := Bench.start "bt848" bt848 0x1500 (.ofTicks 1)
    let script : List Step := [.acquire, .acquireFromHost, .notify, .nextKey 3, .release 1,
      .drop 1, .reset, .acquire, .drop 0, .takeSignal]
    let other : List Step := [.acquireFromHost, .acquire, .notify, .nextKey 3, .drop 1,
      .release 1, .reset, .acquireFromHost, .release 0, .takeSignal]
    alive (b.answers script) = [2] ∧ (b.after script).device.host.users = 1 ∧
      other.map Step.plain = script.map Step.plain ∧ b.run other = b.run script ∧
      (b.after script).takeAllBack.device.host.users = 0 := by
  intro b script other
  obtain ⟨⟨users, -⟩, -, -, indistinguishable, back⟩ :=
    users_counted "bt848" bt848 0x1500 (.ofTicks 1) script
  have out : alive (b.answers script) = [2] := by decide +kernel
  have same : other.map Step.plain = script.map Step.plain := by decide
  have begun : start "bt848" bt848 0x1500 (.ofTicks 1) = b := rfl
  rw [begun] at users back
  rw [out] at users
  exact ⟨out, users, same, indistinguishable other same, back⟩

end RemoteKeys.Bench
