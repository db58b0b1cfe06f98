import RemoteKeys.Proofs.Decode.Width
import RemoteKeys.Proofs.Device.History

/-!
# Codes fit the width of their device

No reading spells a code beyond the width of its card, and the width that a device advertises is
that of its card. What a device answers is spelled by a reading, in whatever order it is used.

## Main result

`Device.codes_fit_width`: in every history, every code fits the width, and is what the word spells
that the action read last, or was given.
-/

namespace RemoteKeys

/-! ### Histories -/

namespace Device

variable {ρ ε : Type} [Register ρ ε]

/-- The word that the action read, the last one if it read several, or was given. -/
def Event.Took (e : Event ρ) (raw : Word) : Prop :=
  match e.action with
  | .decode given => raw = given
  | .nextKey _ => ∃ reads, e.before.ReadsWord reads raw e.after
  | _ => e.before.ReadsWord 0 raw e.after

private theorem exists_took {d : Device ρ} {action : Action ρ} {code : Code}
    (answered : (d.event action).reply.code? = some code) :
    ∃ raw, (d.event action).Took raw ∧ d.setup.decode raw = some code := by
  -- The other actions answer with no code at all.
  cases action with
  | sample now => exact readsWord_sample answered
  | keyAt now => exact readsWord_sample (Outcome.code?_of_key? answered)
  | tryKey => exact readsWord_sample (Outcome.code?_of_key? answered)
  | decode raw => exact ⟨raw, rfl, answered⟩
  | nextKey polls =>
    have found := d.found_nextKey polls
    rw [show (d.nextKey polls).1.map Prod.fst = some code from answered] at found
    obtain ⟨reads, raw, read, decoded⟩ := found
    exact ⟨raw, ⟨reads, read⟩, decoded⟩
  | changeRegister _ | setClock _ | reset | acquire | acquireFromHost | release | notify
  | takeSignal | askSignal => cases answered

/--
However an admitted device is used and whatever its register gives, every code it answers with, to
report or held back, fits the width that it advertises, and is spelled by the word that this very
action took. So it is, in any state, with every sample, which includes those whose codes a call for
the next key holds back, and with every single poll of a call, whatever happened since the poll
before.
-/
theorem codes_fit_width {c : Config} {s : Setup} (admitted : c.setup = .ok s) (name : String)
    (register : ρ) (clock : Instant) :
    let d := Device.start name s register clock
    (d.descriptor.width = match c.trigger with
      | .polled => c.mask.ones
      | .interrupt => c.width) ∧
    (∀ actions, ∀ e ∈ d.history actions, ∀ code, e.reply.code? = some code →
      code.toNat < 2 ^ d.descriptor.width ∧ ∃ raw, e.Took raw ∧ s.decode raw = some code) ∧
    ∀ any : Device ρ, any.setup = s →
      (∀ now code, (any.sample now).1.code? = some code → code.toNat < 2 ^ d.descriptor.width ∧
        ∃ raw, any.ReadsWord 0 raw (any.sample now).2 ∧ s.decode raw = some code) ∧
      ∀ timer? code, (any.pollNextKey timer?).1 = some code → code.toNat < 2 ^ d.descriptor.width ∧
        ∃ reads raw, any.ReadsWord reads raw (any.pollNextKey timer?).2.2 ∧
          s.decode raw = some code := by
  intro d
  refine ⟨Config.width_of_setup admitted, ?_, ?_⟩
  · intro actions e member code answered
    obtain ⟨before, action, rfl, setup, -⟩ := exists_event_of_mem_history member
    obtain ⟨raw, took, decoded⟩ := exists_took answered
    rw [setup] at decoded
    exact ⟨Setup.toNat_lt_of_decode decoded, raw, took, decoded⟩
  · rintro any rfl
    refine ⟨?_, ?_⟩
    · intro now code carried
      obtain ⟨raw, read, decoded⟩ := readsWord_sample carried
      exact ⟨Setup.toNat_lt_of_decode decoded, raw, read, decoded⟩
    · intro timer? code answered
      have found := any.found_pollNextKey timer?
      rw [answered] at found
      obtain ⟨reads, raw, read, decoded⟩ := found
      exact ⟨Setup.toNat_lt_of_decode decoded, reads, raw, read, decoded⟩

end Device

/-- A card with gaps between its lines: the same code reported and held back, and the largest one it
has. -/
theorem codes_fit_width_cx88 :
    let d := Device.start "cx88" cx88 ({ word := 0x70088e42 } : Latch) (.ofTicks 1)
    let actions : List (Device.Action Latch) := [.notify, .nextKey 2,
      .sample (.ofMillis 100), .reset, .changeRegister (·.change 0xfffffffe), .tryKey,
      .decode 0xffffffff]
    cx88Config.setup = .ok cx88 ∧ d.descriptor.width = 9 ∧
    (d.history actions).map (fun e => e.reply.code?) =
      [none, some 17, some 17, none, none, some 497, none] ∧
    ∀ e ∈ d.history actions, ∀ code, e.reply.code? = some code →
      code.toNat < 2 ^ d.descriptor.width ∧ ∃ raw, e.Took raw ∧ cx88.decode raw = some code := by
  intro d actions
  have admitted : cx88Config.setup = .ok cx88 := by decide +kernel
  obtain ⟨width, fits, -⟩ :=
    Device.codes_fit_width admitted "cx88" ({ word := 0x70088e42 } : Latch) (.ofTicks 1)
  exact ⟨admitted, width, by decide +kernel, fits actions⟩

end RemoteKeys
