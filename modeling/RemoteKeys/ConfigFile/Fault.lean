import RemoteKeys.ConfigFile.Param
import RemoteKeys.Diagnostic
import RemoteKeys.Text.Quoted

/-!
# Faults of config files

What may be wrong with a config file, with the slice of the file at fault. A fault quotes the
slice itself, never a copy of it, so that what a message shows is what its span selects.
-/

namespace RemoteKeys.ConfigFile

open Text

/-- The name of the section that holds the parameters. -/
def sectionName : String := "gpio_ir"

/-- Something that is wrong with a config file. -/
inductive Fault where
  | unclosedHeader (line : Slice)
  | unknownSection (line : Slice) (name : List Char)
  | repeatedSection (line : Slice)
  /-- Something that stands in front of the section. -/
  | outsideSection (line : Slice)
  | notAssignment (line : Slice)
  | unknownParam (name : Slice)
  | repeatedParam (name : Slice)
  | missingValue (line : Slice)
  | badTrigger (value : Slice)
  | badNumber (value : Slice)
  | tooLarge (value : Slice)
  | missingSection
  /-- The file does not say which lines carry the code. -/
  | missingMask
  deriving DecidableEq

namespace Fault

/-- What the user is told. -/
def message : Fault → String
  | unclosedHeader _ => "Missing ]"
  | unknownSection _ name => "Unknown section [" ++ String.ofList name ++ "]"
  | repeatedSection _ => "Duplicate section"
  | outsideSection _ => "Expected [" ++ sectionName ++ "] section"
  | notAssignment _ => "Expected name = value"
  | unknownParam name => "Unknown parameter " ++ quoted name.chars
  | repeatedParam name => "Duplicate parameter " ++ quoted name.chars
  | missingValue _ => "Missing value"
  | badTrigger _ => "Invalid variant; expected " ++
    " or ".intercalate (Trigger.all.map Trigger.name)
  | badNumber value => "Invalid number " ++ quoted value.chars
  | tooLarge value => String.ofList value.chars ++ " is too large"
  | missingSection => "Missing [" ++ sectionName ++ "] section"
  | missingMask => "Missing " ++ Param.mask.name

def slice? : Fault → Option Slice
  | unclosedHeader s | unknownSection s _ | repeatedSection s | outsideSection s | notAssignment s
  | unknownParam s | repeatedParam s | missingValue s | badTrigger s | badNumber s | tooLarge s =>
    some s
  | missingSection | missingMask => none

def diagnostic (fault : Fault) : Diagnostic :=
  { message := fault.message, span? := fault.slice?.map Slice.span }

end Fault

end RemoteKeys.ConfigFile
