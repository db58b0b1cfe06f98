import RemoteKeys.Text.Hidden

/-!
# Quoted texts

Messages show text from files between double quotes. Quotes and backslashes stand behind a
backslash, and hidden characters are shown by a letter or by their code, so that a quoted text is
one line and says exactly what was written.
-/

namespace RemoteKeys.Text

/-- One character as it stands between quotes. -/
def quotedChar (c : Char) : List Char :=
  if c = '"' then ['\\', '"']
  else if c = '\\' then ['\\', '\\']
  else if c = '\x00' then ['\\', '0']
  else if c = '\t' then ['\\', 't']
  else if c = '\r' then ['\\', 'r']
  else if c = '\n' then ['\\', 'n']
  else if isHidden c then ['\\', 'u', '\x7b'] ++ Nat.toDigits 16 c.toNat ++ ['\x7d']
  else [c]

/-- A text between double quotes. -/
def quoted (text : List Char) : String := String.ofList ('"' :: text.flatMap quotedChar ++ ['"'])

end RemoteKeys.Text
