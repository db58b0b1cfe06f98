import RemoteKeys.Proofs.CommandLine.Lines
import RemoteKeys.Proofs.Trace.Grammar

/-!
# What is shown is a trace

The lines that `replay` shows by default have the form of samples: a time, and a code in the place
of the word that was read. They are a trace file of the reported codes, so that what one card
reported can be played back to another one.

## Main result

`replay_shows_trace`: what is shown is read as the trace of the reported codes.

## Proof strategy

The shown text is a trace file by its grammar. Each line is a sample, as both of its numbers are
read back; no line holds a line end or the mark of a comment; and the times are some of those of the
trace that was played back, so that they never go back and none is too late.
-/

namespace RemoteKeys

open Text CommandLine

/-- The keys to report of a trace that was played back, as samples of their codes. -/
def reportedCodes (played : List (Nat × Outcome)) : Trace :=
  played.filterMap fun (timeMs, outcome) => outcome.key?.map fun code => ⟨timeMs, some code⟩

private theorem map_timeMs_reportedCodes (played : List (Nat × Outcome)) :
    (reportedCodes played).map Sample.timeMs = reports played := by
  induction played with
  | nil => rfl
  | cons p rest ih =>
    obtain ⟨timeMs, o⟩ := p
    rw [← List.singleton_append, reports_append, reports_singleton, ← ih]
    cases o <;> rfl

private theorem Trace.sampleLines_flatMap {lines : List (List Char)}
    (plain : ∀ line ∈ lines, '\n' ∉ line ∧ '#' ∉ line ∧ words line ≠ []) :
    sampleLines (lines.flatMap (· ++ ['\n'])) = lines := by
  have uncommented : lines.map (fun line => line.takeWhile (· ≠ '#')) = lines := by
    refine (List.map_congr_left fun line mem => ?_).trans (List.map_id lines)
    refine List.takeWhile_eq_self_iff.mpr fun c inside => decide_eq_true ?_
    rintro rfl
    exact (plain line mem).2.1 inside
  have filled : lines.filter (fun line => !line.all isBlank) = lines := by
    refine List.filter_eq_self.mpr fun line mem => ?_
    rw [Bool.not_eq_true', ← Bool.not_eq_true, List.all_eq_true]
    exact mt words_eq_nil_iff.mpr (plain line mem).2.2
  -- Behind the end of the last line there is one more line, with nothing on it.
  rw [sampleLines, splitOn_flatMap fun line mem => (plain line mem).1, List.map_append,
    List.filter_append, uncommented, filled]
  exact List.append_nil lines

namespace CommandLine

private theorem words_keyLine (timeMs : Nat) (code : Code) :
    words (outcomeLine timeMs (.key code)).toList =
      [(toString timeMs).toList, (hex code.toNat).toList] := by
  have time : words (toString timeMs).toList = [(toString timeMs).toList] :=
    words_of_forall (toString_ne_nil timeMs) fun c mem =>
      isBlank_of_mem_numeralLetters (mem_numeralLetters_toString mem)
  have reading : words (hex code.toNat).toList = [(hex code.toNat).toList] :=
    words_of_forall (hex_ne_nil _) fun c mem =>
      isBlank_of_mem_numeralLetters (mem_numeralLetters_hex mem)
  rw [toList_outcomeLine, words_append_blank (by decide), time, outcomeText, reading,
    List.singleton_append]

private theorem isSample_keyLine {timeMs : Nat} (within : timeMs ≤ Trace.timeLimitMs)
    (code : Code) :
    Trace.IsSample (outcomeLine timeMs (.key code)).toList ⟨timeMs, some code⟩ := by
  have time_fits : timeMs ≤ numeralLimit := Nat.le_trans within (by decide)
  have code_fits : code.toNat ≤ numeralLimit := by
    have small := code.isLt
    simp only [numeralLimit]
    omega
  exact ⟨_, _, words_keyLine timeMs code, ⟨numeral?_toString time_fits, within⟩,
    numeral?_hex code_fits⟩

private theorem forall₂_keyLines {played : List (Nat × Outcome)}
    (within : ∀ p ∈ played, p.1 ≤ Trace.timeLimitMs) :
    List.Forall₂ Trace.IsSample ((playedLines false played).map String.toList)
    (reportedCodes played) := by
  induction played with
  | nil => exact .nil
  | cons p rest ih =>
    obtain ⟨first, later⟩ := List.forall_mem_cons.mp within
    obtain ⟨timeMs, o⟩ := p
    cases o with
    | key code => exact .cons (isSample_keyLine first code) (ih later)
    | held _ | locked | unread => exact ih later

private theorem exists_keyLine {played : List (Nat × Outcome)} {line : String}
    (shown : line ∈ playedLines false played) :
    ∃ timeMs code, line = outcomeLine timeMs (.key code) := by
  obtain ⟨⟨timeMs, o⟩, mem, rfl⟩ := List.mem_map.mp shown
  have key := (List.mem_filter.mp mem).2
  cases o with
  | key code => exact ⟨timeMs, code, rfl⟩
  | held _ | locked | unread => cases key

private theorem isTraceFile_playedLines {played : List (Nat × Outcome)}
    (within : ∀ p ∈ played, p.1 ≤ Trace.timeLimitMs)
    (ascending : (played.map Prod.fst).Pairwise (· ≤ ·)) :
    Trace.IsTraceFile (Printed.text { lines := playedLines false played }).toList
      (reportedCodes played) := by
  have samples : Trace.sampleLines (Printed.text { lines := playedLines false played }).toList =
      (playedLines false played).map String.toList := by
    rw [Printed.toList_text]
    refine Trace.sampleLines_flatMap (List.forall_mem_map.mpr fun line shown => ?_)
    obtain ⟨timeMs, code, rfl⟩ := exists_keyLine shown
    refine ⟨newline_not_mem_outcomeLine timeMs (.key code), ?_, ?_⟩
    · exact fun comment => absurd (mem_keyLine comment) (by decide)
    · rw [words_keyLine]
      exact List.cons_ne_nil _ _
  constructor
  · rw [samples]
    exact forall₂_keyLines within
  · -- The times of the reports are some of all times.
    rw [map_timeMs_reportedCodes, List.isChain_iff_pairwise]
    exact ascending.sublist (List.filter_sublist.map Prod.fst)

end CommandLine

/-! ### Main result -/

/--
A config file and a trace file load. `replay` succeeds, and what it shows is read as a trace: that
of the codes that it reported, in order, each at the time of its sample.
-/
theorem replay_shows_trace {read : Reader} {config trace : String} {s : Setup} {t : Trace}
    (configured : loadSetup read config = .ok s) (recorded : loadTrace read trace = .ok t) :
    let printed := (Command.replay config trace false).run read
    printed.failure? = none ∧ Trace.read printed.text.toList = .ok (reportedCodes (t.play s)) := by
  intro printed
  have printed_eq : printed = { lines := playedLines false (t.play s) } :=
    run_replay configured recorded false
  obtain ⟨source, -, loaded⟩ := Except.bind_eq_ok_iff.mp recorded
  have accepted : Trace.read source = .ok t := Except.mapError_eq_ok_iff.mp loaded
  have times : (t.play s).map Prod.fst = t.map Sample.timeMs := t.map_fst_play s
  rw [printed_eq]
  refine ⟨rfl, Trace.read_ok_iff.mpr (isTraceFile_playedLines ?_ ?_)⟩
  · have within : ∀ timeMs ∈ (t.play s).map Prod.fst, timeMs ≤ Trace.timeLimitMs := by
      rw [times]
      exact List.forall_mem_map.mpr (Trace.within_of_read accepted)
    exact List.forall_mem_map.mp within
  · rw [times]
    exact List.isChain_iff_pairwise.mp (Trace.read_ok_iff.mp accepted).ascending

/-- Two keys are shown of five samples. -/
theorem replay_shows_trace_bt848 :
    let printed := (Command.replay "bt848.toml" "bt848.trace" false).run bt848Folder
    loadSetup bt848Folder "bt848.toml" = .ok bt848 ∧
      loadTrace bt848Folder "bt848.trace" = .ok bt848Trace ∧
      printed.text = "0 0x15\n600 0x3\n" ∧
      Trace.read printed.text.toList = .ok [⟨0, some 0x15⟩, ⟨600, some 0x3⟩] := by
  intro printed
  have configured := loadSetup_bt848Folder
  have recorded := loadTrace_bt848Folder
  obtain ⟨-, shown⟩ := replay_shows_trace configured recorded
  have reported : reportedCodes (bt848Trace.play bt848) = [⟨0, some 0x15⟩, ⟨600, some 0x3⟩] := by
    decide +kernel
  exact ⟨configured, recorded, by decide +kernel, reported ▸ shown⟩

end RemoteKeys
