import RemoteKeys.Config

/-!
# Parameters

The parameters that a config file may set, and the settings that it gives them. A file sets a
parameter by name; what a setting does to a configuration is `Setting.apply`.
-/

namespace RemoteKeys

/-- A part of a configuration that a file may set. -/
inductive Param where
  | mask
  | lockMask
  | invertMask
  | gap
  | rate
  | minor
  | width
  | trigger
  deriving DecidableEq

namespace Param

def name : Param → String
  | mask => "gpio_mask"
  | lockMask => "gpio_lock_mask"
  | invertMask => "gpio_xor_mask"
  | gap => "soft_gap"
  | rate => "sample_rate"
  | minor => "minor"
  | width => "code_length"
  | trigger => "variant"

def all : List Param := [mask, lockMask, invertMask, gap, rate, minor, width, trigger]

def ofName? (text : List Char) : Option Param := all.find? fun p => p.name.toList = text

theorem ofName?_name (p : Param) : ofName? p.name.toList = some p := by cases p <;> decide

theorem name_of_ofName? {text : List Char} {p : Param} (h : ofName? text = some p) :
    p.name.toList = text := by
  simpa using List.find?_some h

end Param

/-- A parameter with the value that it is given. -/
inductive Setting where
  | mask (lines : Word)
  | lockMask (lines : Word)
  | invertMask (lines : Word)
  | gap (millis : Nat)
  | rate (perSecond : Nat)
  | minor (number : Nat)
  | width (bits : Nat)
  | trigger (trigger : Trigger)
  deriving DecidableEq

namespace Setting

def param : Setting → Param
  | mask _ => .mask
  | lockMask _ => .lockMask
  | invertMask _ => .invertMask
  | gap _ => .gap
  | rate _ => .rate
  | minor _ => .minor
  | width _ => .width
  | trigger _ => .trigger

def trigger? : Setting → Option Trigger
  | trigger t => some t
  | _ => none

/-- The configuration with the parameter set. -/
def apply (c : Config) : Setting → Config
  | mask lines => { c with mask := lines }
  | lockMask lines => { c with lockMask := lines }
  | invertMask lines => { c with invertMask := lines }
  | gap millis => { c with gapMs := millis }
  | rate perSecond => { c with rate := perSecond }
  | minor number => { c with minor := number }
  | width bits => { c with width := bits }
  | trigger t => { c with trigger := t }

end Setting

end RemoteKeys
