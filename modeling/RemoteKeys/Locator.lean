import RemoteKeys.Text.Place

/-!
# Locators

Reports are shown by a printer that is no part of this library, and that tells a line and a column
by counting of its own. A locator stands for the way a printer counts. All that is relied on is one
law, `Locator.CountsFromOne`, which says nothing of the texts on which printers differ.
`Locator.unicode` is the way of the printer that the commands use.
-/

namespace RemoteKeys

namespace Text

/--
What may end a line: line feed, vertical tab, form feed, carriage return, next line, line separator
and paragraph separator.
-/
def lineEnds : List Char := ['\n', '\x0b', '\x0c', '\r', '\u0085', '\u2028', '\u2029']

/-- Every line ends in a line feed, with or without a carriage return in front of it. -/
def OnlyNewlines (text : List Char) : Prop :=
  ∀ before c after, text = before ++ c :: after → c ∈ lineEnds →
    c = '\n' ∨ (c = '\r' ∧ after.head? = some '\n')

end Text

open Text

/-- Tells the line and the column of a character of a text, which is given by its index. -/
abbrev Locator := List Char → Nat → Nat × Nat

namespace Locator

/--
Whether a line ends behind a character, by what follows it. A carriage return and a line feed end
one line together, and the text does not end with a line of nothing.
-/
def endsLine (c : Char) : List Char → Bool
  | [] => false
  | next :: _ => c ∈ lineEnds ∧ ¬(c = '\r' ∧ next = '\n')

/-- The line and the column of a character, where the text starts at these. -/
def countFrom (line column : Nat) : Locator
  | c :: rest, index + 1 =>
    if endsLine c rest then countFrom (line + 1) 1 rest index
    else countFrom line (column + 1) rest index
  | _, _ => (line, column)

/-- Counts the lines of any text, each of which may end in any of the line ends. -/
def unicode : Locator := countFrom 1 1

end Locator

end RemoteKeys
