/-!
# Hexadecimal texts

Register words and codes are shown in base sixteen, in lower case, without padding, after `0x`.
-/

namespace RemoteKeys.Text

/-- A number in base sixteen, behind `0x`. -/
def hex (n : Nat) : String := "0x" ++ String.ofList (Nat.toDigits 16 n)

end RemoteKeys.Text
