import RemoteKeys.Proofs.CommandLine.Lines
import RemoteKeys.Proofs.Diagnostic.Header
import RemoteKeys.Proofs.Trace.Faults

/-!
# What is printed before a failure

`decode` tells of each word as it goes, so that a word which cannot be read leaves the lines of
those before it on the screen. `replay` reads the whole trace first: a trace that is at fault
anywhere is not played back at all, and its fault is told with its place.

## Main result

`printed_before_failure`: the lines of both commands, and the failures that end them.

## Proof strategy

The words of `decode` are cut at the first that names no register word; what stands in front of the
cut prints its lines and leaves the rest as it is (`decodeWords_append`). A fault of a trace is
about a part of one of its lines, which tells where the span stands (`Report.lineColumn_of_marks`).
-/

namespace RemoteKeys

open Text CommandLine

namespace CommandLine

/-- The text is a numeral of that register word. -/
def Names (text : String) (raw : Word) : Prop := numeral? text.toList = some raw.toNat

/-! ### Printed texts -/

private theorem Printed.text_eq_join (p : Printed) :
    p.text = String.join (p.lines.map (· ++ "\n")) := by
  have newline : "\n".toList = ['\n'] := by decide
  apply String.toList_inj.mp
  rw [toList_text, String.toList_join, List.flatMap_map, List.flatMap_map]
  simp only [String.toList_append, newline]

/-! ### Words of `decode` -/

private theorem registerWord?_eq_none_iff {text : String} :
    registerWord? text = none ↔ ∀ n, numeral? text.toList = some n → wordLimit ≤ n := by
  rw [registerWord?, Option.map_eq_none_iff, Option.filter_eq_none_iff]
  simp only [decide_eq_true_eq, Nat.not_lt]

/-- Either every word names a reading, or there is a first one that names none. -/
theorem exists_readings (words : List String) : ∃ before readings,
    List.Forall₂ (fun word raw => registerWord? word = some raw) before readings ∧
      (words = before ∨ ∃ word after, words = before ++ word :: after ∧
        registerWord? word = none) := by
  induction words with
  | nil => exact ⟨[], [], .nil, Or.inl rfl⟩
  | cons word rest ih =>
    cases first : registerWord? word with
    | none => exact ⟨[], [], .nil, Or.inr ⟨word, rest, rfl, first⟩⟩
    | some raw =>
      -- The cut is that of the words behind this one.
      obtain ⟨before, readings, named, whole_or_cut⟩ := ih
      refine ⟨word :: before, raw :: readings, .cons first named, ?_⟩
      rcases whole_or_cut with rfl | ⟨bad, after, rfl, unnamed⟩
      · exact Or.inl rfl
      · exact Or.inr ⟨bad, after, rfl, unnamed⟩

variable {read : Reader} {config trace : String} {source : List Char} {s : Setup}

/-- Nothing is told of the words behind the one that stops the command. -/
theorem decodeWords_of_unnamed {before : List String} {readings : List Word} {word : String}
    (named : List.Forall₂ (fun word raw => registerWord? word = some raw) before readings)
    (unnamed : registerWord? word = none) (after : List String) :
    decodeWords s (before ++ word :: after) =
      { lines := readings.map fun raw => decodedLine (s.decode raw)
        failure? := some { message := "Invalid register value " ++ quoted word.toList } } := by
  rw [decodeWords_append named, decodeWords, unnamed, List.append_nil]

/-! ### Traces of `replay` -/

private theorem loadTrace_of_read {t : Trace} (found : read trace = .ok source)
    (recorded : Trace.read source = .ok t) :
    loadTrace read trace = .ok t := by
  simp only [loadTrace, found, recorded, bind, Except.bind, Except.mapError]

private theorem loadTrace_of_rejected {fault : Trace.Fault} (found : read trace = .ok source)
    (failed : Trace.read source = .error fault) :
    loadTrace read trace = .error (.ofTraceText trace source fault.diagnostic) := by
  simp only [loadTrace, found, failed, bind, Except.bind, Except.mapError]

private theorem run_replay_of_rejected {failure : Failure}
    (configured : loadSetup read config = .ok s) (rejected : loadTrace read trace = .error failure)
    (verbose : Bool) :
    (Command.replay config trace verbose).run read = { lines := [], failure? := some failure } := by
  rw [Command.run, Command.print, configured]
  simp only [bind, Except.bind, rejected]

end CommandLine

/-- The place of a fault of a trace is the line and the column of the first character at fault. -/
theorem Trace.exists_place {source : List Char} {fault : Trace.Fault}
    (failed : Trace.read source = .error fault) :
    ∃ chars, Report.inChars? source fault.slice.span = some chars ∧
      lineColumn source chars.start =
        ((fault.diagnostic.place source).line, (fault.diagnostic.place source).column) ∧
      1 ≤ (fault.diagnostic.place source).line ∧ 1 ≤ (fault.diagnostic.place source).column := by
  obtain ⟨content, mem, part, -⟩ := Trace.concerns_of_read failed
  have marks := (marks_of_mem_contents mem).of_partOf part
  have shown : fault.diagnostic.span? = some fault.slice.span := rfl
  obtain ⟨chars, converted, counted⟩ := Report.lineColumn_of_marks shown marks
  -- Lines are counted behind the line ends above, and columns behind what is in front: both start
  -- at 1.
  obtain ⟨above, front, -, -, -, -, -, -, line, column⟩ := Report.exists_place_of_marks shown marks
  refine ⟨chars, converted, counted, ?_, ?_⟩
  · rw [line]
    exact Nat.le_add_left 1 _
  · rw [column]
    exact Nat.le_add_left 1 _

/-! ### Main result -/

/--
A config file loads. Then `decode` prints the line of each word in order: its code in base sixteen,
or `locked`. If some word is no numeral, or one of `2 ^ 32` or more, it does so up to the first such
word, and fails with a message that quotes this word; else it succeeds. `replay` plays a trace file
back and succeeds, if its text is a trace. If it is not, it prints nothing and fails with the
message of the fault, behind the place of the fault: the line and the column, counted from 1, of the
first character at fault.
-/
theorem printed_before_failure {read : Reader} {config : String} {s : Setup}
    (configured : loadSetup read config = .ok s) :
    (∀ words, let printed := (Command.decode config words).run read
      ∃ readings,
        printed.text = String.join (readings.map fun raw => decodedLine (s.decode raw) ++ "\n") ∧
        ((List.Forall₂ Names words readings ∧ printed.failure? = none ∧ printed.exitCode = 0) ∨
          ∃ before word after, words = before ++ word :: after ∧
            List.Forall₂ Names before readings ∧
            (∀ n, numeral? word.toList = some n → 2 ^ 32 ≤ n) ∧
            printed.failure? = some { message := "Invalid register value " ++ quoted word.toList } ∧
            printed.exitCode = 1)) ∧
      ∀ trace source verbose, read trace = .ok source →
        let printed := (Command.replay config trace verbose).run read
        (∀ t, Trace.read source = .ok t →
          printed.text = String.join ((playedLines verbose (t.play s)).map (· ++ "\n")) ∧
            printed.failure? = none ∧ printed.exitCode = 0) ∧
          ∀ fault, Trace.read source = .error fault →
            let place := fault.diagnostic.place source
            printed.text = "" ∧ printed.exitCode = 1 ∧
              printed.failure? = some
                { message := "Invalid trace \"" ++ trace ++ "\" at " ++
                    toString place.line ++ ":" ++ toString place.column ++
                    "\n    " ++ fault.message } ∧
              ∃ chars, Report.inChars? source fault.slice.span = some chars ∧
                lineColumn source chars.start = (place.line, place.column) ∧
                1 ≤ place.line ∧ 1 ≤ place.column := by
  constructor
  · intro words printed
    obtain ⟨before, readings, named, whole_or_cut⟩ := exists_readings words
    have names : List.Forall₂ Names before readings :=
      named.imp fun _ _ => registerWord?_eq_some_iff.mp
    have lines_text {p : Printed}
        (lines : p.lines = readings.map fun raw => decodedLine (s.decode raw)) :
        p.text = String.join (readings.map fun raw => decodedLine (s.decode raw) ++ "\n") := by
      rw [Printed.text_eq_join, lines, List.map_map]
      rfl
    -- In both cases the lines are those of the words in front of the cut.
    refine ⟨readings, ?_⟩
    rcases whole_or_cut with rfl | ⟨word, after, rfl, unnamed⟩
    · have run : printed = _ := (run_decode configured words).trans (decodeWords_eq named)
      rw [run]
      exact ⟨lines_text rfl, Or.inl ⟨names, rfl, rfl⟩⟩
    · have run : printed = _ :=
        (run_decode configured _).trans (decodeWords_of_unnamed named unnamed after)
      rw [run]
      have no_word := registerWord?_eq_none_iff.mp unnamed
      exact ⟨lines_text rfl, Or.inr ⟨before, word, after, rfl, names, no_word, rfl, rfl⟩⟩
  · intro trace source verbose found printed
    constructor
    · intro t recorded
      have run : printed = _ := run_replay configured (loadTrace_of_read found recorded) verbose
      rw [run]
      exact ⟨Printed.text_eq_join _, rfl, rfl⟩
    · intro fault failed place
      have run : printed = _ :=
        run_replay_of_rejected configured (loadTrace_of_rejected found failed) verbose
      rw [run]
      exact ⟨rfl, rfl, rfl, Trace.exists_place failed⟩

/-- A word that is too large between others, and a trace with a letter too many on its third
line. -/
theorem printed_before_failure_bt848 :
    let gap := "0 0x1500\n# gap\n40 0x15g0\n".toList
    let files : Reader := fun path => if path = "gap.trace" then .ok gap else bt848Folder path
    let decoded :=
      (Command.decode "bt848.toml" ["5376", "0x9500", "0x1_0000_0000", "7936"]).run files
    let played := (Command.replay "bt848.toml" "gap.trace" true).run files
    (decoded.text = "0x15\nlocked\n" ∧ decoded.exitCode = 1 ∧
        decoded.failure? = some { message := "Invalid register value \"0x1_0000_0000\"" }) ∧
      played.text = "" ∧ played.exitCode = 1 ∧
      played.failure? = some
        { message := "Invalid trace \"gap.trace\" at 3:4\n    Invalid raw value \"0x15g0\"" } := by
  intro gap files decoded played
  have configured : loadSetup files "bt848.toml" = .ok bt848 := by decide +kernel
  have gap_failed : Trace.read gap = .error (.badReading ⟨18, "0x15g0".toList⟩) := by decide +kernel
  have run : decoded = decodeWords bt848 ["5376", "0x9500", "0x1_0000_0000", "7936"] :=
    run_decode configured _
  have told : decoded.failure? =
      some { message := "Invalid register value \"0x1_0000_0000\"" } := by
    rw [run]
    decide +kernel
  obtain ⟨decodes, replays⟩ := printed_before_failure configured
  obtain ⟨-, -, ⟨-, silent, -⟩ | ⟨-, -, -, -, -, -, -, exits⟩⟩ :=
    decodes ["5376", "0x9500", "0x1_0000_0000", "7936"]
  · cases silent.symm.trans told
  · obtain ⟨nothing, played_exits, failure, -⟩ := (replays "gap.trace" gap true rfl).2 _ gap_failed
    refine ⟨⟨by rw [run]; decide +kernel, exits, told⟩, nothing, played_exits, failure.trans ?_⟩
    decide +kernel

end RemoteKeys
