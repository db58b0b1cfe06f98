import RemoteKeys.Text.Blank

/-!
# Numerals

A numeral is written in base ten, or in base sixteen behind `0x` or `0X`. Underscores may stand
anywhere in it and mean nothing; one plus sign may stand in front of the digits. A numeral whose
value does not fit 64 bits is not read.
-/

namespace RemoteKeys.Text

/-- The largest value that a numeral may have, `2 ^ 64 - 1`. -/
def numeralLimit : Nat := 18446744073709551615

/-- The value of an ASCII digit or letter as a digit, if it is a digit of that base. -/
def digit? (base : Nat) (c : Char) : Option Nat :=
  let value? :=
    if '0' ≤ c ∧ c ≤ '9' then some (c.toNat - '0'.toNat)
    else if 'a' ≤ c ∧ c ≤ 'f' then some (c.toNat - 'a'.toNat + 10)
    else if 'A' ≤ c ∧ c ≤ 'F' then some (c.toNat - 'A'.toNat + 10)
    else none
  value?.filter (· < base)

/-- The value of a list of digits, the first of which counts most. -/
def positional (base : Nat) (digits : List Nat) : Nat := digits.foldl (fun n d => base * n + d) 0

/-- The value of one digit or more, behind at most one plus sign. -/
def digits? (base : Nat) (text : List Char) : Option Nat :=
  let digits := match text with
    | '+' :: rest => rest
    | _ => text
  if digits = [] then none else (digits.mapM (digit? base)).map (positional base)

/-- The base that a numeral without underscores is written in, and what follows the mark of the
base. -/
def splitBase : List Char → Nat × List Char
  | '0' :: 'x' :: rest => (16, rest)
  | '0' :: 'X' :: rest => (16, rest)
  | text => (10, text)

/-- The value of a numeral. -/
def numeral? (text : List Char) : Option Nat :=
  let (base, digits) := splitBase (text.filter (· ≠ '_'))
  (digits? base digits).filter (· ≤ numeralLimit)

end RemoteKeys.Text
