import RemoteKeys.Limits

/-!
# Faults of configurations

The bounds that a configuration can break, each with the value that breaks it, and the words in
which users and the journal are told.
-/

namespace RemoteKeys

/-- A bound that a configuration breaks. -/
inductive ConfigFault where
  /-- No line carries the code. -/
  | emptyMask
  | noSuchCard (minor : Nat)
  | badRate (rate : Nat)
  /-- A polled card's quiet period does not cover two sampling periods. -/
  | shortGap (gapMs leastMs : Nat)
  | badGap (gapMs : Nat)
  | badWidth (width : Nat)
  /-- An interrupt driven card's code does not fit its width. -/
  | narrowWidth (width needed : Nat)
  deriving DecidableEq

namespace ConfigFault

/-- What the user is told. -/
def message : ConfigFault → String
  | emptyMask => "gpio_mask must select at least one bit"
  | noSuchCard minor =>
    "minor " ++ toString minor ++ " out of range; must be less than " ++ toString deviceLimit
  | badRate rate =>
    "sample_rate " ++ toString rate ++ " out of range " ++ rateBounds.text
  | shortGap gapMs leastMs =>
    "soft_gap " ++ toString gapMs ++ "ms too short for the sample rate; must be at least "
      ++ toString leastMs ++ "ms"
  | badGap gapMs =>
    "soft_gap " ++ toString gapMs ++ "ms out of range " ++ interruptGapBounds.text
  | badWidth width =>
    "code_length " ++ toString width ++ " out of range " ++ widthBounds.text
  | narrowWidth width needed =>
    "code_length " ++ toString width ++ " too short; gpio_mask needs " ++ toString needed ++ " bits"

/-- The word that stands for the kind of fault in records. -/
def kind : ConfigFault → String
  | emptyMask => "ZeroMask"
  | noSuchCard _ => "MinorOutOfRange"
  | badRate _ => "SampleRateOutOfRange"
  | shortGap .. => "GapTooShort"
  | badGap _ => "GapOutOfRange"
  | badWidth _ => "CodeLengthOutOfRange"
  | narrowWidth .. => "CodeLengthTooShort"

/-- The kind of fault with its values, as the journal shows it. -/
def record (fault : ConfigFault) : String :=
  match fault with
  | emptyMask => fault.kind
  | noSuchCard n | badRate n | badGap n | badWidth n =>
    fault.kind ++ "(" ++ toString n ++ ")"
  | shortGap gapMs leastMs =>
    fault.kind ++ " \x7b gap_ms: " ++ toString gapMs ++ ", min_ms: " ++ toString leastMs ++ " \x7d"
  | narrowWidth width needed =>
    fault.kind ++ " \x7b code_length: " ++ toString width ++ ", needed: " ++ toString needed
      ++ " \x7d"

end ConfigFault

end RemoteKeys
