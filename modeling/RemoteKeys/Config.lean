import RemoteKeys.KeyMask
import RemoteKeys.Limits

/-!
# Configurations

What a user may say about a card and its remote. Nothing is checked here: a configuration may
select no line at all or name a card that cannot exist.
-/

namespace RemoteKeys

/-- What makes the driver look at the register. -/
inductive Trigger where
  /-- The host samples the register at a fixed rate. -/
  | polled
  /-- The card raises an interrupt whenever a line changes. -/
  | interrupt
  deriving DecidableEq

namespace Trigger

def name : Trigger → String
  | polled => "polled"
  | interrupt => "interrupt"

def all : List Trigger := [polled, interrupt]

def ofName? (text : List Char) : Option Trigger :=
  all.find? fun t => t.name.toList = text

end Trigger

/-- A card and its remote as the user describes them. -/
structure Config where
  trigger : Trigger := .polled
  minor : Nat := 0
  /-- The lines that carry the key code. -/
  mask : Word := 0
  /-- Lines that are set while the others are changing. -/
  lockMask : Word := 0
  /-- Lines of a polled card that are to be read inverted. -/
  invertMask : Word := 0
  /-- Quiet period in milliseconds; zero leaves the choice for a polled card to the driver. -/
  gapMs : Nat := 0
  /-- Samples per second of a polled card. -/
  rate : Nat := defaultRate
  width : Nat := 0
  deriving DecidableEq

namespace Config

/-- A polled card that says nothing but which lines carry the code. -/
def polled (mask : Word) : Config := { mask }

/-- An interrupt driven card that says nothing but which lines carry the code, and its width. -/
def interrupt (mask : Word) (width : Nat) : Config :=
  { trigger := .interrupt, mask, gapMs := defaultInterruptGapMs, width }

end Config

end RemoteKeys
