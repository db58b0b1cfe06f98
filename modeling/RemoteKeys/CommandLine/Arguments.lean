/-!
# Arguments

The command line takes the name of a command, then its files and values, in that order. Flags may
stand anywhere behind the name; `--` ends them, and whatever follows it is a file or a value.
Arguments are read from left to right, and the first one that cannot be accepted decides what is
wrong. Asking for help or for the version ends the reading in the same way.
-/

namespace RemoteKeys.CommandLine

/-- Why no command was read. -/
inductive Refusal where
  | help
  | version
  | nothing
  | unknownCommand
  | missingArgument
  /-- A flag that the command does not have, or more files than it takes. -/
  | unknownArgument
  | repeatedFlag
  /-- A flag that was given a value. -/
  | flagWithValue
  | emptyPath
  deriving DecidableEq

namespace Refusal

/-- The word that stands for the kind of refusal in records. -/
def kind : Refusal → String
  | help => "DisplayHelp"
  | version => "DisplayVersion"
  | nothing => "DisplayHelpOnMissingArgumentOrSubcommand"
  | unknownCommand => "InvalidSubcommand"
  | missingArgument => "MissingRequiredArgument"
  | unknownArgument => "UnknownArgument"
  | repeatedFlag => "ArgumentConflict"
  | flagWithValue => "TooManyValues"
  | emptyPath => "InvalidValue"

/-- Help and the version were asked for; all else is a mistake. -/
def exitCode : Refusal → Nat
  | help | version => 0
  | _ => 2

end Refusal

inductive CommandName where
  | check
  | decode
  | replay
  deriving DecidableEq

namespace CommandName

def text : CommandName → String
  | check => "check"
  | decode => "decode"
  | replay => "replay"

def all : List CommandName := [check, decode, replay]

def ofText? (text : String) : Option CommandName := all.find? (·.text = text)

def files : CommandName → Nat
  | check | decode => 1
  | replay => 2

/-- The command takes one value or more behind its files. -/
def takesValues : CommandName → Bool
  | decode => true
  | check | replay => false

def hasVerbose : CommandName → Bool
  | check | replay => true
  | decode => false

end CommandName

/-- What was read behind the name of a command. -/
structure Operands where
  verbose : Bool := false
  words : List String := []
  deriving DecidableEq

namespace Operands

/-- Files need a name. This is looked at when the next argument has been understood. -/
def settle (o : Operands) (name : CommandName) : Except Refusal Operands :=
  if "" ∈ o.words.take name.files then .error .emptyPath else .ok o

/-- Adds a file or a value. -/
def addWord (o : Operands) (name : CommandName) (word : String) : Except Refusal Operands := do
  if o.words.length < name.files ∨ name.takesValues then
    let o ← o.settle name
    return { o with words := o.words ++ [word] }
  else throw .unknownArgument

def addVerbose (o : Operands) (name : CommandName) : Except Refusal Operands := do
  if name.hasVerbose then
    let o ← o.settle name
    if o.verbose then throw .repeatedFlag
    return { o with verbose := true }
  else throw .unknownArgument

/-- Reads the letters of an argument such as `-vh`, each of which is a flag. -/
def addLetters (o : Operands) (name : CommandName) : List Char → Except Refusal Operands
  | [] => .ok o
  | 'v' :: rest => do addLetters (← o.addVerbose name) name rest
  | 'h' :: _ => do let _ ← o.settle name; throw .help
  | 'V' :: _ => do let _ ← o.settle name; throw .version
  | _ :: _ => .error .unknownArgument

/-- Reads a flag of its own, such as `--verbose`, without the dashes. -/
def addFlag (o : Operands) (name : CommandName) (flag : List Char) : Except Refusal Operands := do
  let flagName := String.ofList (flag.takeWhile (· ≠ '='))
  if flagName ∈ ["help", "version"] ∨ (flagName = "verbose" ∧ name.hasVerbose) then
    if '=' ∈ flag then throw .flagWithValue
    if flagName = "verbose" then o.addVerbose name
    else
      let _ ← o.settle name
      throw (if flagName = "help" then .help else .version)
  else throw .unknownArgument

/-- Reads the arguments behind the name of a command; `ended` when no more flags may follow. -/
def read (o : Operands) (name : CommandName) (ended : Bool) : List String → Except Refusal Operands
  | [] => do
    let o ← o.settle name
    if o.words.length < name.files + name.takesValues.toNat then throw .missingArgument
    return o
  | arg :: rest =>
    if ended then do read (← o.addWord name arg) name true rest
    else match arg.toList with
      | ['-', '-'] => o.read name true rest
      | '-' :: '-' :: flag => do read (← o.addFlag name flag) name false rest
      | '-' :: letter :: letters => do
        read (← o.addLetters name (letter :: letters)) name false rest
      | _ => do read (← o.addWord name arg) name false rest

end Operands

/-- What the user wants done. -/
inductive Command where
  /-- Check a config file, and show what comes of it. -/
  | check (config : String) (verbose : Bool)
  /-- Decode register words. -/
  | decode (config : String) (words : List String)
  /-- Play a trace back. -/
  | replay (config trace : String) (verbose : Bool)
  deriving DecidableEq

namespace Command

def files : Command → List String
  | check config _ => [config]
  | decode config _ => [config]
  | replay config trace _ => [config, trace]

def ofOperands (name : CommandName) (o : Operands) : Except Refusal Command :=
  match name, o.words with
  | .check, [config] => .ok (.check config o.verbose)
  | .decode, config :: words => .ok (.decode config words)
  | .replay, [config, trace] => .ok (.replay config trace o.verbose)
  | _, _ => .error .missingArgument

def isName (word : String) : Bool := word = "help" || (CommandName.ofText? word).isSome

/-- What is refused where help on a command is asked for by its name. -/
def helpOn : List String → Refusal
  | [] => .help
  | [word] => if isName word then .help else .unknownCommand
  | _ => .unknownCommand

/-- What is refused where flags end before any command. -/
def afterDashes : List String → Refusal
  | [] => .nothing
  | word :: _ => if isName word then .unknownArgument else .unknownCommand

/-- What is refused where a flag stands in front of any command. -/
def flagInFront (flag : List Char) : Refusal :=
  let flagName := String.ofList (flag.takeWhile (· ≠ '='))
  if flagName ∉ ["help", "version"] then .unknownArgument
  else if '=' ∈ flag then .flagWithValue
  else if flagName = "help" then .help
  else .version

/-- The command that the arguments ask for. -/
def read : List String → Except Refusal Command
  | [] => .error .nothing
  | arg :: rest =>
    match CommandName.ofText? arg with
    | some name => do ofOperands name (← Operands.read {} name false rest)
    | none =>
      if arg = "help" then .error (helpOn rest)
      else match arg.toList with
        | ['-', '-'] => .error (afterDashes rest)
        | '-' :: '-' :: flag => .error (flagInFront flag)
        | '-' :: 'h' :: _ => .error .help
        | '-' :: 'V' :: _ => .error .version
        | '-' :: _ :: _ => .error .unknownArgument
        | _ => .error .unknownCommand

end Command

end RemoteKeys.CommandLine
