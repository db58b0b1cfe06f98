import RemoteKeys.Diagnostic
import RemoteKeys.Locator

/-!
# Reports

A report shows a fault in its source, and is handed to a printer. It works on characters, so that
the span of a diagnostic is turned into character offsets first. There is no report for a diagnostic
without a span, or one whose span does not lie on the characters of the source. Of what a printer
makes of a report only the header is told here, with the line and the column of the first character
of the span; they are the printer's, found by its locator.
-/

namespace RemoteKeys

open Text

/-- What a printer is handed of a fault. -/
structure Report where
  /-- What the source goes by. -/
  name : String
  source : List Char
  message : String
  /-- The characters at fault. -/
  span : Span
  deriving DecidableEq

namespace Report

/-- Number of characters in the first `offset` bytes of a text, if these bytes are whole
characters. -/
def charOffset? : List Char → Nat → Option Nat
  | _, 0 => some 0
  | [], _ + 1 => none
  | c :: rest, offset@(_ + 1) =>
    if c.utf8Size ≤ offset then (charOffset? rest (offset - c.utf8Size)).map (· + 1) else none

/-- A span in characters. -/
def inChars? (source : List Char) (span : Span) : Option Span :=
  if span.start ≤ span.stop then do
    let start ← charOffset? source span.start
    let stop ← charOffset? source span.stop
    return ⟨start, stop⟩
  else none

/-- Stands for the path of a file that cannot be shown. -/
def unknownPath : String := "<unknown>"

/-- The report on a diagnostic, if there is one. -/
def ofDiagnostic? (path? : Option String) (source : List Char) (d : Diagnostic) :
    Option Report := do
  let span ← d.span?
  let chars ← inChars? source span
  return { name := path?.getD unknownPath, source, message := d.message, span := chars }

/-- The header that a printer shows which finds places by that locator. -/
def header (locate : Locator) (r : Report) : String :=
  let (line, column) := locate r.source r.span.start
  r.name ++ ":" ++ toString line ++ ":" ++ toString column

end Report

end RemoteKeys
