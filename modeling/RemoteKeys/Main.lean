import RemoteKeys.CommandLine.Run

/-!
# The command line

Reads the files that a command names, runs it, and shows what it printed and why it failed.
-/

namespace RemoteKeys.CommandLine

/--
What the commands are told of a fault of the file system. A folder can be opened, so that the fault
of reading it names no path, while the one of a file in a folder's place does.
-/
def faultOfError : IO.Error → FileFault
  | .noFileOrDirectory .. => .notFound
  | .inappropriateType none .. => .isFolder
  | .inappropriateType (some _) .. => .notFolder
  | .invalidArgument (some path) .. => if '\x00' ∈ path.toList then .hasNul else .tooLong
  | error => .system (toString error)

/-- Reads a whole file as text. -/
def readFile (path : String) : IO (Except FileFault (List Char)) := do
  try return textOfBytes (← IO.FS.readBinFile path)
  catch error => return .error (faultOfError error)

/-- What is shown to those who ask for help. -/
def usage : String :=
  "Check GPIO remote control settings and replay register traces

Usage: check [-v] <FILE>
       decode <FILE> <RAW>...
       replay [-v] <FILE> <TRACE>"

/-- What is shown where no command was read, and the exit code. -/
def refuse (refusal : Refusal) : IO UInt32 := do
  if refusal.exitCode = 0 then IO.println usage
  else IO.eprintln (refusal.kind ++ "\n\n" ++ usage)
  return refusal.exitCode.toUInt32

/-- Runs a command on the files of the system. -/
def execute (command : Command) : IO UInt32 := do
  let texts ← command.files.mapM fun path => do return (path, ← readFile path)
  let printed := command.run fun path => (texts.lookup path).getD (.error .notFound)
  IO.print printed.text
  if let some failure := printed.failure? then
    if let some report := failure.report? then IO.eprintln (report.header .unicode)
    IO.eprintln failure.message
  return printed.exitCode.toUInt32

end RemoteKeys.CommandLine

open RemoteKeys.CommandLine in
/-- Reads the arguments and does what they ask for. -/
def main (args : List String) : IO UInt32 :=
  match Command.read args with
  | .error refusal => refuse refusal
  | .ok command => execute command
