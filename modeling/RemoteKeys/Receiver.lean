import RemoteKeys.Setup
import RemoteKeys.Holdoff
import RemoteKeys.Register

/-!
# Receivers

A receiver reads a card's register and says what became of each reading: a key to report, a key
that the quiet period holds back, lines that were changing, or no reading at all. What a reading
does to the receiver depends only on its setup, the hold-off, the reading and the time, which is
`Setup.observe`; `Receiver.sample` adds the read.
-/

namespace RemoteKeys

/-- What became of one reading. -/
inductive Outcome where
  /-- A key to report. -/
  | key (code : Code)
  /-- A key that the quiet period holds back. -/
  | held (code : Code)
  | locked
  /-- The register could not be read. -/
  | unread
  deriving DecidableEq

def Outcome.key? : Outcome → Option Code
  | key code => some code
  | _ => none

namespace Setup

/-- An interrupt driven card's quiet period holds back every code, a polled card's the same code. -/
def holdoffScope (s : Setup) : HoldoffScope :=
  match s.trigger with
  | .polled => .sameCode
  | .interrupt => .everyCode

theorem holdoffScope_polled {s : Setup} (polled : s.trigger = .polled) :
    s.holdoffScope = .sameCode := by
  rw [holdoffScope, polled]

theorem holdoffScope_interrupt {s : Setup} (interrupt : s.trigger = .interrupt) :
    s.holdoffScope = .everyCode := by
  rw [holdoffScope, interrupt]

/-- The hold-off of a card that has reported nothing. -/
def holdoff (s : Setup) : Holdoff := Holdoff.fresh s.holdoffScope s.gap

/-- What becomes of a reading at time `now`, and of the hold-off; `none` is a failed read. -/
def observe (s : Setup) (h : Holdoff) (reading : Option Word) (now : Instant) : Outcome × Holdoff :=
  match reading with
  | none => (.unread, h)
  | some raw =>
    match s.decode raw with
    | none => (.locked, h.disturb)
    | some code =>
      let (reported, h) := h.offer code now
      (if reported then .key code else .held code, h)

end Setup

/-- A register and what is known of the card behind it. -/
structure Receiver (ρ : Type) where
  setup : Setup
  holdoff : Holdoff
  register : ρ

namespace Receiver

variable {ρ ε : Type}

def start (setup : Setup) (register : ρ) : Receiver ρ := ⟨setup, setup.holdoff, register⟩

/-- Forgets what was reported, as when the device is opened again. -/
def reset (r : Receiver ρ) : Receiver ρ := { r with holdoff := r.holdoff.reset }

variable [Register ρ ε]

def sample (r : Receiver ρ) (now : Instant) : Outcome × Receiver ρ :=
  let (result, register) := Register.read r.register r.setup.minor
  let (outcome, holdoff) := r.setup.observe r.holdoff result.toOption now
  (outcome, { r with holdoff, register })

/-- Reads the register once at each of the given times. -/
def sampleAll (r : Receiver ρ) : List Instant → List Outcome × Receiver ρ
  | [] => ([], r)
  | now :: later =>
    let (outcome, r) := r.sample now
    let (outcomes, r) := sampleAll r later
    (outcome :: outcomes, r)

@[simp] theorem setup_sample (r : Receiver ρ) (now : Instant) :
    (r.sample now).2.setup = r.setup := rfl

theorem length_sampleAll (r : Receiver ρ) (times : List Instant) :
    (r.sampleAll times).1.length = times.length := by
  induction times generalizing r with
  | nil => rfl
  | cons now later ih => simp [sampleAll, ih]

end Receiver

end RemoteKeys
