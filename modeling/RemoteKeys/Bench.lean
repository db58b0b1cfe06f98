import RemoteKeys.Device.Action
import RemoteKeys.Register.Latch

/-!
# Benches

A bench is a device whose register is a latch, together with the guards that its users hold. A
script of steps on a bench can do everything that a card, a clock, a host and its users do, in any
order, and is answered step by step. What a step does to the device is an action on it; the bench
itself looks after the guards.
-/

namespace RemoteKeys

/-- A device on a latch, and for each guard handed out whether its user still holds it. -/
structure Bench where
  device : Device Latch
  guards : List Bool := []

namespace Bench

/-- Something that is done on a bench. -/
inductive Step where
  | latch (word : Word)
  | queueWord (word : Word)
  | queueFailure
  | setClock (now : Instant)
  /-- The clock goes on by so many milliseconds, which it has left. -/
  | advance (millis : Nat)
  | sample (now : Instant)
  | keyAt (now : Instant)
  | tryKey
  | decode (raw : Word)
  | reset
  | acquire
  | acquireFromHost
  /-- The user with that guard gives it back. -/
  | release (guard : Nat)
  /-- The user with that guard lets it go. -/
  | drop (guard : Nat)
  | notify
  | takeSignal
  | askSignal
  | nextKey (polls : Nat)
  deriving DecidableEq

/-- What a step answers. -/
inductive Reply where
  /-- What the action on the device answered. -/
  | device (reply : Device.Reply)
  /-- The number of the guard that was handed out. -/
  | guard (index : Nat)
  | noGuard
  deriving DecidableEq

/-- A device on a latch, with no users. -/
def start (name : String) (setup : Setup) (word : Word) (clock : Instant) : Bench :=
  { device := Device.start name setup { word } clock }

/-- Number of guards that users hold. -/
def held (b : Bench) : Nat := b.guards.count true

/-- Does to the device what an action does, and leaves the guards alone. -/
def act (b : Bench) (action : Device.Action Latch) : Reply × Bench :=
  let (reply, device) := b.device.act action
  (.device reply, { b with device })

/-- Hands out a guard for an action that opens the device. -/
def handOut (b : Bench) (acquisition : Device.Action Latch) : Reply × Bench :=
  (.guard b.guards.length, { (b.act acquisition).2 with guards := b.guards ++ [true] })

/-- Takes a guard back from the user who holds it, whichever way it comes back. -/
def takeBack (b : Bench) (guard : Nat) : Reply × Bench :=
  match b.guards[guard]? with
  | some true => (.device .done, { (b.act .release).2 with guards := b.guards.set guard false })
  | _ => (.noGuard, b)

def step (b : Bench) : Step → Reply × Bench
  | .latch word => b.act (.changeRegister (·.change word))
  | .queueWord word => b.act (.changeRegister (·.queueWord word))
  | .queueFailure => b.act (.changeRegister Latch.queueFailure)
  | .setClock now => b.act (.setClock now)
  | .advance millis => b.act (.setClock (b.device.clock.later (millis * ticksPerMilli)))
  | .sample now => b.act (.sample now)
  | .keyAt now => b.act (.keyAt now)
  | .tryKey => b.act .tryKey
  | .decode raw => b.act (.decode raw)
  | .reset => b.act .reset
  | .acquire => b.handOut .acquire
  | .acquireFromHost => b.handOut .acquireFromHost
  | .release guard => b.takeBack guard
  | .drop guard => b.takeBack guard
  | .notify => b.act .notify
  | .takeSignal => b.act .takeSignal
  | .askSignal => b.act .askSignal
  | .nextKey polls => b.act (.nextKey polls)

def run (b : Bench) : List Step → List (Reply × Bench)
  | [] => []
  | s :: rest => let after := b.step s; after :: run after.2 rest

def after (b : Bench) (script : List Step) : Bench := script.foldl (fun b s => (b.step s).2) b

/-- Takes every guard back that a user still holds. -/
def takeAllBack (b : Bench) : Bench :=
  (List.range b.guards.length).foldl (fun b guard => (b.takeBack guard).2) b

end Bench

end RemoteKeys
