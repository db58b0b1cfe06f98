import RemoteKeys.CommandLine.Arguments
import RemoteKeys.CommandLine.Reader
import RemoteKeys.Config.Admission
import RemoteKeys.ConfigFile
import RemoteKeys.Report
import RemoteKeys.Trace.File

/-!
# Running commands

A command reads its files and prints lines. Where it fails, what it printed before stays printed.
A fault in the text of a config file is shown as a report; every other failure is told in words.
-/

namespace RemoteKeys.CommandLine

open Text

/-- Why a command failed. -/
structure Failure where
  message : String
  /-- The report on the config file. -/
  report? : Option Report := none
  deriving DecidableEq

namespace Failure

/-- A file that cannot be used, and why. -/
def invalidFile (path reason : String) : Failure :=
  { message := "Invalid \"" ++ path ++ "\"!\n    " ++ reason }

/-- A config file whose text is at fault. -/
def ofConfigText (path : String) (source : List Char) (d : Diagnostic) : Failure :=
  match d.span? with
  | none => invalidFile path d.text
  | some _ => { message := "", report? := Report.ofDiagnostic? (some path) source d }

/-- A trace file whose text is at fault. -/
def ofTraceText (path : String) (source : List Char) (d : Diagnostic) : Failure :=
  let place := d.place source
  { message := "Invalid trace \"" ++ path ++ "\" at "
      ++ toString place.line ++ ":" ++ toString place.column ++ "\n    " ++ d.message }

end Failure

/-- What a command printed, line by line, and why it stopped early if it did. -/
structure Printed where
  lines : List String
  failure? : Option Failure := none
  deriving DecidableEq

namespace Printed

def text (p : Printed) : String := String.ofList (p.lines.flatMap fun line => line.toList ++ ['\n'])

/-- The exit code of the program. -/
def exitCode (p : Printed) : Nat := if p.failure?.isSome then 1 else 0

end Printed

/-- The setup that a config file describes. -/
def loadSetup (read : Reader) (path : String) : Except Failure Setup := do
  let source ← (read path).mapError fun fault => .invalidFile path fault.message
  let config ← (ConfigFile.read source).mapError fun fault =>
    .ofConfigText path source fault.diagnostic
  config.setup.mapError fun fault => .invalidFile path fault.message

def loadTrace (read : Reader) (path : String) : Except Failure Trace := do
  let source ← (read path).mapError fun fault => .invalidFile path fault.message
  (Trace.read source).mapError fun fault => .ofTraceText path source fault.diagnostic

/-- What a setup comes to. -/
def setupLines (s : Setup) : List String :=
  ["variant:     " ++ s.trigger.name,
    "minor:       " ++ toString s.minor,
    "mask:        " ++ hex s.mask.bits.toNat,
    "pre-shift:   " ++ toString s.mask.offset,
    "code length: " ++ toString s.width,
    "gap:         " ++ toString s.gapMs ++ "ms" ++
      match s.rate? with
      | some rate => " (minimum " ++ toString (Rate.leastGapMs rate) ++ "ms)"
      | none => ""]

/-- The masks and the sampling period of a setup. -/
def maskLines (s : Setup) : List String :=
  ["gpio mask:   " ++ hex s.mask.word.toNat,
    "lock mask:   " ++ hex s.lockMask.toNat,
    "xor mask:    " ++ hex s.invertMask.toNat]
    ++ (s.periodMs?.map fun periodMs => "sample every " ++ toString periodMs ++ "ms").toList

/-- What a register word decodes to. -/
def decodedLine : Option Code → String
  | some code => hex code.toNat
  | none => "locked"

/-- The register word that a numeral names. -/
def registerWord? (text : String) : Option Word :=
  ((numeral? text.toList).filter (· < wordLimit)).map (BitVec.ofNat _)

/-- Decodes words in turn, up to the first that is no register word. -/
def decodeWords (s : Setup) : List String → Printed
  | [] => { lines := [] }
  | text :: rest =>
    match registerWord? text with
    | none =>
      { lines := []
        failure? := some { message := "Invalid register value " ++ quoted text.toList } }
    | some raw =>
      let printed := decodeWords s rest
      { printed with lines := decodedLine (s.decode raw) :: printed.lines }

/-- What became of a reading, behind its time. -/
def outcomeLine (timeMs : Nat) (outcome : Outcome) : String :=
  toString timeMs ++ " " ++
    match outcome with
    | .key code => hex code.toNat
    | .held code => hex code.toNat ++ " suppressed"
    | .locked => "locked"
    | .unread => "read failed"

/-- The lines of a trace that was played back. Only keys to report are shown, unless all was asked
for. -/
def playedLines (verbose : Bool) (played : List (Nat × Outcome)) : List String :=
  (played.filter fun (_, outcome) => verbose || outcome.key?.isSome).map fun (timeMs, outcome) =>
    outcomeLine timeMs outcome

/-- What a command prints once its files are loaded, or why they could not be. -/
def Command.print (read : Reader) : Command → Except Failure Printed
  | check config verbose => do
    let setup ← loadSetup read config
    return { lines := setupLines setup ++ if verbose then maskLines setup else [] }
  | decode config words => do
    let setup ← loadSetup read config
    return decodeWords setup words
  | replay config trace verbose => do
    let setup ← loadSetup read config
    let trace ← loadTrace read trace
    return { lines := playedLines verbose (trace.play setup) }

/-- Runs a command. A command whose files cannot be loaded prints nothing. -/
def Command.run (read : Reader) (command : Command) : Printed :=
  match command.print read with
  | .ok printed => printed
  | .error failure => { lines := [], failure? := some failure }

end RemoteKeys.CommandLine
