/-!
# Reading files

What the commands see of the file system: the result of reading a whole file as text.
-/

namespace RemoteKeys.CommandLine

/-- Why a file could not be read. -/
inductive FileFault where
  | notFound
  | isFolder
  | notFolder
  /-- The path or one of its names has too many bytes. -/
  | tooLong
  /-- The path has a NUL in it, where the system takes a path to end. -/
  | hasNul
  /-- The bytes of the file are not UTF-8. -/
  | notText
  /-- Any other fault, in the system's words. -/
  | system (text : String)
  deriving DecidableEq

def FileFault.message : FileFault → String
  | notFound => "No such file or directory (os error 2)"
  | isFolder => "Is a directory (os error 21)"
  | notFolder => "Not a directory (os error 20)"
  | tooLong => "File name too long (os error 36)"
  | hasNul => "file name contained an unexpected NUL byte"
  | notText => "stream did not contain valid UTF-8"
  | system text => text

/-- Reads a whole file by its path. -/
abbrev Reader := String → Except FileFault (List Char)

/-- The text that a file's bytes hold. -/
def textOfBytes (bytes : ByteArray) : Except FileFault (List Char) :=
  match String.fromUTF8? bytes with
  | some text => .ok text.toList
  | none => .error .notText

end RemoteKeys.CommandLine
