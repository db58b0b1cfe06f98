import RemoteKeys.Device.Action
import RemoteKeys.Proofs.NextKey.Reads

/-!
# Histories of devices

A history lists actions on a device one after the other, each with its reply and with the device
before and after it.

## Main statements

- `Device.act_kept`: no action changes what the device is set up for.
- `Device.exists_event_of_mem_history`: so every event is an action on a device with the first one's
  setup.
-/

namespace RemoteKeys.Device

variable {ρ ε : Type}

/-- The code that a reply carries, reported or not. -/
def Reply.code? : Reply → Option Code
  | .outcome o => o.code?
  | .code code? => code?
  | .nextKey answer => answer.map Prod.fst
  | .done | .time _ | .ready _ | .signal _ => none

/-- An action with its reply and the device before and after it. -/
structure Event (ρ : Type) where
  before : Device ρ
  action : Action ρ
  reply : Reply
  after : Device ρ

variable [Register ρ ε]

def event (d : Device ρ) (action : Action ρ) : Event ρ :=
  ⟨d, action, (d.act action).1, (d.act action).2⟩

def history (d : Device ρ) : List (Action ρ) → List (Event ρ)
  | [] => []
  | action :: rest => d.event action :: (d.act action).2.history rest

def afterAll (d : Device ρ) (actions : List (Action ρ)) : Device ρ :=
  actions.foldl (fun d action => (d.act action).2) d

/-- No action changes what a device is set up for. -/
theorem act_kept (d : Device ρ) (action : Action ρ) : (d.act action).2.setup = d.setup ∧
    (d.act action).2.receiver.holdoff.scope = d.receiver.holdoff.scope ∧
      (d.act action).2.receiver.holdoff.gap = d.receiver.holdoff.gap := by
  cases action with
  | nextKey polls =>
    obtain ⟨reads, after⟩ := (d.found_nextKey polls).exists_afterReads
    exact ⟨after.setup, after.scope, after.gap⟩
  | sample now | keyAt now =>
    have after := d.afterReads_sample now
    exact ⟨after.setup, after.scope, after.gap⟩
  | tryKey =>
    have after := d.afterReads_sample d.clock
    exact ⟨after.setup, after.scope, after.gap⟩
  | changeRegister _ | setClock _ | decode _ | reset | acquire | acquireFromHost | release | notify
  | takeSignal | askSignal =>
    exact ⟨rfl, rfl, rfl⟩

/-- Every event of a history is an action on a device that is set up as the first one was. -/
theorem exists_event_of_mem_history {d : Device ρ} {actions : List (Action ρ)} {e : Event ρ}
    (member : e ∈ d.history actions) : ∃ (before : Device ρ) (action : Action ρ),
      before.event action = e ∧ before.setup = d.setup ∧
        before.receiver.holdoff.scope = d.receiver.holdoff.scope := by
  induction actions generalizing d with
  | nil => cases member
  | cons action rest ih =>
    rcases List.mem_cons.mp member with rfl | later
    · exact ⟨d, action, rfl, rfl, rfl⟩
    · obtain ⟨before, done, same, setup, scope⟩ := ih later
      obtain ⟨setup_kept, scope_kept, -⟩ := d.act_kept action
      exact ⟨before, done, same, setup.trans setup_kept, scope.trans scope_kept⟩

end RemoteKeys.Device
