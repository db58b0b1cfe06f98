import RemoteKeys.Setup
import RemoteKeys.Text.Hex

/-!
# Admission of configurations

`Config.setup` turns a configuration into a setup, or names the first bound that it breaks. The
card's number comes first, then the key mask, then what the trigger asks for: the rate and the
quiet period of a polled card, the quiet period and the width of an interrupt driven one.
-/

namespace RemoteKeys.Config

/-- The quiet period of a polled card; an unset one is made long enough for the rate. -/
def polledGapMs (c : Config) : Nat :=
  if c.gapMs = 0 then max defaultPolledGapMs (Rate.leastGapMs c.rate) else c.gapMs

/-- The drive that a configuration asks for, once its key mask is known. -/
def drive (c : Config) (mask : KeyMask) : Except ConfigFault (Drive mask) :=
  match c.trigger with
  | .polled =>
    if rate_admitted : rateBounds.Admit c.rate then
      if gap_covers : Rate.leastGapMs c.rate ≤ c.polledGapMs then
        .ok (.polled c.rate c.polledGapMs c.invertMask rate_admitted gap_covers)
      else .error (.shortGap c.polledGapMs (Rate.leastGapMs c.rate))
    else .error (.badRate c.rate)
  | .interrupt =>
    if gap_admitted : interruptGapBounds.Admit c.gapMs then
      if width_admitted : widthBounds.Admit c.width then
        if reach_le : mask.reach ≤ c.width then
          .ok (.interrupt c.gapMs c.width gap_admitted width_admitted reach_le)
        else .error (.narrowWidth c.width mask.reach)
      else .error (.badWidth c.width)
    else .error (.badGap c.gapMs)

/-- The setup that a configuration describes, or the first bound that it breaks. -/
def setup (c : Config) : Except ConfigFault Setup :=
  if isMinor : IsMinor c.minor then
    match KeyMask.ofWord? c.mask with
    | none => .error .emptyMask
    | some mask =>
      (c.drive mask).map fun drive =>
        { minor := c.minor, mask, lockMask := c.lockMask, drive, isMinor }
  else .error (.noSuchCard c.minor)

/-- What the journal says of a configuration while it is checked. -/
def journal (c : Config) : List String :=
  let subject := "minor " ++ toString c.minor ++ ": "
  match c.setup with
  | .error fault => ["WARN: " ++ subject ++ "rejected config " ++ fault.record]
  | .ok s =>
    let ignored :=
      if c.trigger = .interrupt ∧ c.invertMask ≠ 0 then
        ["WARN: " ++ subject ++ "gpio_xor_mask ignored"]
      else []
    ignored ++ ["INFO: " ++ subject ++ "mask " ++ Text.hex s.mask.bits.toNat
      ++ " shift " ++ toString s.mask.offset ++ " length " ++ toString s.width]

end RemoteKeys.Config
