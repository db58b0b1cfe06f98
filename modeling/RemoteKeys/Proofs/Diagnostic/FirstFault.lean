import RemoteKeys.Proofs.ConfigFile.Faults
import RemoteKeys.Proofs.Trace.Faults

/-!
# The first fault is the one reported

Files are read from the front, line by line. Where a file is cut behind a line end, its lines are
those of both parts, and what the first part leaves to the second is what its lines say: it may make
a later line wrong, and never changes what was wrong before.

## Main result

`first_fault_reported`: a fault of a line stays the fault of the file, however the file goes on;
where the lines of the first part are in order, a fault is behind them.

## Proof strategy

The contents of the whole file are those of the first part and those of the second, moved up by the
length of the first (`contents_append`). Both readers are folds over the contents that end at their
first fault.
-/

namespace RemoteKeys

open Text

namespace ConfigFile

/-- A fault that has a span is the fault of a line. -/
theorem readContents_of_read {source : List Char} {fault : Fault} {s : Slice}
    (failed : read source = .error fault) (shown : fault.slice? = some s) :
    readContents {} (contents source) = .error fault := by
  rcases Except.bind_eq_error_iff.mp failed with line_failed | ⟨d, lines_read, config_failed⟩
  · exact line_failed
  · rcases lacksPart_of_config lines_read config_failed with ⟨-, rfl⟩ | ⟨-, -, -, rfl⟩
      <;> cases shown

variable {p q : List Char}

theorem readContents_contents_append (ends : p = [] ∨ p.getLast? = some '\n') :
    readContents {} (contents (p ++ q)) =
      readContents {} (contents p) >>= fun d => readContents d (contentsFrom (byteLength p) q) := by
  rw [contents_append ends, readContents, List.foldlM_append]
  rfl

private theorem read_append_of_error {fault : Fault} (ends : p = [] ∨ p.getLast? = some '\n')
    (failed : readContents {} (contents p) = .error fault) : read (p ++ q) = .error fault := by
  rw [read, readContents_contents_append ends, failed]
  rfl

private theorem le_start_of_read_append {d : Draft} {fault : Fault} {s : Slice}
    (ends : p = [] ∨ p.getLast? = some '\n') (in_order : readContents {} (contents p) = .ok d)
    (failed : read (p ++ q) = .error fault) (shown : fault.slice? = some s) :
    byteLength p ≤ s.start := by
  have line_failed := readContents_of_read failed shown
  rw [readContents_contents_append ends, in_order] at line_failed
  obtain ⟨content, mem, s', also_shown, part, -⟩ :=
    concerns_of_readContents (fun _ mem => isContent_of_mem_contentsFrom mem) line_failed
  rw [shown] at also_shown
  cases also_shown
  exact Nat.le_trans (le_start_of_mem_contentsFrom mem) part.start_le

end ConfigFile

namespace Trace

/-- The time that a sample behind the trace must reach. -/
def reached (earliest : Nat) (t : Trace) : Nat := t.foldl (fun _ x => x.timeMs) earliest

/-- All that crosses the cut between two lists of lines is the time reached. -/
theorem readContents_append (earliest : Nat) (a b : List Slice) :
    readContents earliest (a ++ b) = (do
      let t ← readContents earliest a
      let later ← readContents (reached earliest t) b
      return t ++ later) := by
  -- Over the first lines, from any time on: a sample that is read passes its own time to the next.
  induction a generalizing earliest with
  | nil =>
    cases read : readContents earliest b <;>
      simp [readContents, reached, read, bind, Except.bind, pure, Except.pure]
  | cons content rest ih =>
    rw [List.cons_append, readContents, readContents]
    cases first : readSample earliest content with
    | error => rfl
    | ok x =>
      have after_first (t : Trace) : reached earliest (x :: t) = reached x.timeMs t := rfl
      cases others : readContents x.timeMs rest with
      | error => simp [ih, others, bind, Except.bind]
      | ok t =>
        cases later : readContents (reached x.timeMs t) b <;>
          simp [ih, others, later, after_first, bind, Except.bind, pure, Except.pure]

variable {p q : List Char}

theorem read_append (ends : p = [] ∨ p.getLast? = some '\n') :
    read (p ++ q) = (do
      let t ← read p
      let later ← readContents (reached 0 t) (contentsFrom (byteLength p) q)
      return t ++ later) := by
  rw [read, contents_append ends, readContents_append]
  rfl

private theorem read_append_of_error {fault : Fault} (ends : p = [] ∨ p.getLast? = some '\n')
    (failed : read p = .error fault) : read (p ++ q) = .error fault := by
  rw [read_append ends, failed]
  rfl

private theorem le_start_of_read_append {t : Trace} {fault : Fault}
    (ends : p = [] ∨ p.getLast? = some '\n') (in_order : read p = .ok t)
    (failed : read (p ++ q) = .error fault) :
    byteLength p ≤ fault.slice.start := by
  rw [read_append ends, in_order] at failed
  rcases Except.bind_eq_error_iff.mp failed with impossible | ⟨_, ⟨⟩, failed⟩
  · cases impossible
  rcases Except.bind_eq_error_iff.mp failed with line_failed | ⟨later, -, returned⟩
  · obtain ⟨content, mem, part, -⟩ :=
      concerns_of_readContents (fun _ mem => isContent_of_mem_contentsFrom mem) line_failed
    exact Nat.le_trans (le_start_of_mem_contentsFrom mem) part.start_le
  · cases returned

end Trace

/--
A text that ends where a line does decides what is said of every text that starts with it. A fault
of one of its lines is the fault of the whole, message and span; where its lines are in order, no
fault of the whole is shown in front of its end. A trace file whose first part is read is at fault
in the second part or not at all.
-/
theorem first_fault_reported (p q : List Char) (ends : p = [] ∨ p.getLast? = some '\n') :
    (∀ fault span, ConfigFile.read p = .error fault → fault.diagnostic.span? = some span →
        ConfigFile.read (p ++ q) = .error fault) ∧
      ((∀ fault, ConfigFile.read p = .error fault → fault.diagnostic.span? = none) →
        ∀ fault span, ConfigFile.read (p ++ q) = .error fault → fault.diagnostic.span? = some span →
          byteLength p ≤ span.start) ∧
      (∀ fault, Trace.read p = .error fault → Trace.read (p ++ q) = .error fault) ∧
      ∀ t fault, Trace.read p = .ok t → Trace.read (p ++ q) = .error fault →
        ∃ span, fault.diagnostic.span? = some span ∧ byteLength p ≤ span.start ∧
          span.stop ≤ byteLength (p ++ q) := by
  refine ⟨?_, ?_, fun fault => Trace.read_append_of_error ends, ?_⟩
  · intro fault span failed shown
    obtain ⟨s, there, -⟩ := Option.map_eq_some_iff.mp shown
    exact ConfigFile.read_append_of_error ends (ConfigFile.readContents_of_read failed there)
  · intro unshown fault span failed shown
    obtain ⟨s, there, rfl⟩ := Option.map_eq_some_iff.mp shown
    cases lines_read : ConfigFile.readContents {} (contents p) with
    | ok d => exact ConfigFile.le_start_of_read_append ends lines_read failed there
    | error earlier =>
      -- A line of the first part would be at fault, and shown.
      have first_failed : ConfigFile.read p = .error earlier := by
        rw [ConfigFile.read, lines_read]
        rfl
      obtain ⟨content, mem, s', also_there, -⟩ :=
        ConfigFile.concerns_of_readContents (fun _ mem => isContent_of_mem_contents mem) lines_read
      have no_span := unshown earlier first_failed
      rw [ConfigFile.Fault.diagnostic, also_there] at no_span
      cases no_span
  · intro t fault in_order failed
    obtain ⟨content, mem, part, -⟩ := Trace.concerns_of_read failed
    have inside := ((marks_of_mem_contents mem).of_partOf part).bounds
    exact ⟨_, rfl, Trace.le_start_of_read_append ends in_order failed, inside.2⟩

/-- A second part that would be wrong by itself, or that goes wrong only behind the first. -/
theorem first_fault_reported_cards :
    let mistyped := "[gpio_ir]\nrate = 12\n".toList
    let begun := "# card\n[gpio_ir]\ngpio_mask = 3\n".toList
    let more := "gpio_mask = 4".toList
    let wrong : ConfigFile.Fault := .unknownParam ⟨10, "rate".toList⟩
    let repeated : ConfigFile.Fault := .repeatedParam ⟨31, "gpio_mask".toList⟩
    let samples := "7 fail\n9 1\n".toList
    let back : Trace.Fault := .earlierTime ⟨11, "8 2".toList⟩
    (ConfigFile.read mistyped = .error wrong ∧ ConfigFile.read (mistyped ++ more) = .error wrong) ∧
      (ConfigFile.read (begun ++ more) = .error repeated ∧ byteLength begun ≤ 31) ∧
      (Trace.read ("x".toList ++ ['\n']) = .error (.notSample ⟨0, ['x']⟩) ∧
        Trace.read ("x".toList ++ ['\n'] ++ samples) = .error (.notSample ⟨0, ['x']⟩)) ∧
      Trace.read (samples ++ "8 2".toList) = .error back ∧
        ∃ span, back.diagnostic.span? = some span ∧ byteLength samples ≤ span.start := by
  intro mistyped begun more wrong repeated samples back
  have wrong_read : ConfigFile.read mistyped = .error wrong := by decide +kernel
  have repeated_read : ConfigFile.read (begun ++ more) = .error repeated := by decide +kernel
  have stray_read : Trace.read ("x".toList ++ ['\n']) = .error (.notSample ⟨0, ['x']⟩) := by
    decide +kernel
  have back_read : Trace.read (samples ++ "8 2".toList) = .error back := by decide +kernel
  have samples_read : Trace.read samples = .ok [⟨7, none⟩, ⟨9, some 1⟩] := by decide +kernel
  have begun_read : ConfigFile.read begun = .ok (Config.polled 3) := by decide +kernel
  have unshown : ∀ fault, ConfigFile.read begun = .error fault → fault.diagnostic.span? = none := by
    intro fault failed
    rw [begun_read] at failed
    cases failed
  refine ⟨⟨wrong_read, ?_⟩, ⟨repeated_read, ?_⟩, ⟨stray_read, ?_⟩, back_read, ?_⟩
  · exact (first_fault_reported mistyped more (by decide)).1 wrong _ wrong_read rfl
  · exact (first_fault_reported begun more (by decide)).2.1 unshown repeated
      ⟨31, 40⟩ repeated_read (by decide)
  · exact (first_fault_reported _ samples (by decide)).2.2.1 _ stray_read
  · obtain ⟨span, shown, behind, -⟩ :=
      (first_fault_reported samples _ (by decide)).2.2.2 _ back samples_read back_read
    exact ⟨span, shown, behind⟩

end RemoteKeys
