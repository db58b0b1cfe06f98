import RemoteKeys.Text.Place

/-!
# Diagnostics

What is told of a fault in a file: a message and, unless the fault is that something is missing,
the span of the text at fault.
-/

namespace RemoteKeys

open Text

/-- A message about a file. -/
structure Diagnostic where
  message : String
  span? : Option Span
  deriving DecidableEq

namespace Diagnostic

/-- The message, with the byte offsets behind it. -/
def text (d : Diagnostic) : String :=
  match d.span? with
  | none => d.message
  | some span =>
    d.message ++ "\n    at: (" ++ toString span.start ++ ".." ++ toString span.stop ++ ")"

/-- The place where the span starts; line 0 and column 0 of an empty line if there is no span. -/
def place (d : Diagnostic) (source : List Char) : Place :=
  match d.span? with
  | none => { line := 0, column := 0, text := ⟨0, []⟩ }
  | some span => Text.place source span.start

theorem place_of_span {d : Diagnostic} {span : Span} (shown : d.span? = some span)
    (source : List Char) : d.place source = Text.place source span.start := by
  rw [place, shown]

/-- The text with spaces in front of it, as far as it is shorter than `width`. -/
def padLeft (width : Nat) (text : String) : String :=
  String.ofList (List.replicate (width - text.length) ' ') ++ text

/-- The message with the place in the named file, and the line there behind its number. -/
def excerpt (d : Diagnostic) (path : String) (source : List Char) : String :=
  let place := d.place source
  let width := (toString (place.line + 10)).length
  "error: " ++ d.message ++ " \n   --> " ++ path ++ ":" ++ toString place.line
    ++ ":" ++ toString place.column
    ++ "\n " ++ padLeft width (toString place.line) ++ " | " ++ String.ofList place.text.chars
    ++ "\n"

end Diagnostic

end RemoteKeys
