import RemoteKeys.Proofs.CommandLine.Lines

/-!
# Playing back against decoding

A play-back reaches the decoder through the trace, the tape and a receiver that remembers what it
reported; `decode` takes its words from the command line, and remembers nothing. For the same card
they tell the same of every word, and what a play-back shows by default is what it shows in full,
without the marked lines.

## Main result

`replay_agrees_with_decode`: the lines of `replay -v`, against those of `decode` and of `replay`.
-/

namespace RemoteKeys

open Text CommandLine

variable {read : Reader} {config trace : String} {s : Setup} {t : Trace}

private theorem Trace.forall₂_play (t : Trace) (s : Setup) :
    List.Forall₂ (fun x p => p.1 = x.timeMs ∧ s.Accounts x.reading p.2) t (t.play s) := by
  rw [play_eq_playFrom]
  generalize s.holdoff = h
  induction t generalizing h with
  | nil => exact .nil
  | cons x rest ih => exact .cons ⟨rfl, s.accounts_observe h x.reading _⟩ (ih _)

private theorem Setup.Accounts.eq_unread_iff {reading : Option Word} {o : Outcome}
    (told : s.Accounts reading o) :
    o = .unread ↔ reading = none := by
  cases reading with
  | none => simpa [Accounts] using told
  | some raw =>
    simp only [Accounts] at told
    split at told
    · simp [told]
    · obtain ⟨code, -, rfl | rfl⟩ := told <;> simp

private theorem Setup.Accounts.code?_eq {raw : Word} {o : Outcome}
    (told : s.Accounts (some raw) o) :
    o.code? = s.decode raw := by
  simp only [Accounts] at told
  split at told
  next locked => rw [told, Outcome.code?, decode, if_pos locked]
  · obtain ⟨code, decoded, rfl | rfl⟩ := told <;> rw [decoded] <;> rfl

/-! ### Line by line -/

namespace CommandLine

/-- What the line of a sample says of it: its time, and whether its read failed. -/
def TellsOf (line : List Char) (x : Sample) : Prop :=
  (toString x.timeMs ++ " ").toList <+: line ∧ (EndsIn line " read failed" ↔ x.reading = none)

private theorem endsIn_read_failed_iff {reading : Option Word} {o : Outcome}
    (told : s.Accounts reading o) (timeMs : Nat) :
    EndsIn (outcomeLine timeMs o).toList " read failed" ↔ reading = none := by
  have marked : o.mark? = some " read failed" ↔ o = .unread := by cases o <;> simp [Outcome.mark?]
  rw [endsIn_outcomeLine_iff (by decide), marked, told.eq_unread_iff]

private theorem tellsOf_outcomeLine {x : Sample} {o : Outcome} (account : s.Accounts x.reading o) :
    TellsOf (outcomeLine x.timeMs o).toList x := by
  refine ⟨?_, endsIn_read_failed_iff account _⟩
  have blank : " ".toList = [' '] := by decide
  rw [toList_outcomeLine, String.toList_append, blank]
  exact ⟨(outcomeText o).toList, by rw [List.append_assoc, List.singleton_append]⟩

private theorem strip_lines {played : List (Nat × Outcome)}
    (told : List.Forall₂ (fun x p => p.1 = x.timeMs ∧ s.Accounts x.reading p.2) t played) :
    ((played.map fun p => (outcomeLine p.1 p.2).toList).filter
        fun line => ¬ EndsIn line " read failed").map strip =
      (t.filterMap Sample.reading).map fun raw => (decodedLine (s.decode raw)).toList := by
  -- Over the samples with what became of them.
  induction told with
  | nil => rfl
  | @cons x p _ _ first _ ih =>
    have failed := endsIn_read_failed_iff first.2 p.1
    rw [List.map_cons, List.filterMap_cons]
    cases reading : x.reading with
    | none =>
      -- The read failed: its line is removed, and there is no word to decode.
      rw [List.filter_cons_of_neg (by simpa using failed.mpr reading)]
      exact ih
    | some raw =>
      have kept : ¬ EndsIn (outcomeLine p.1 p.2).toList " read failed" := by
        rw [failed, reading]
        nofun
      have spelled : s.Accounts (some raw) p.2 := reading ▸ first.2
      have answered : p.2 ≠ .unread := fun unread => by cases spelled.eq_unread_iff.mp unread
      rw [List.filter_cons_of_pos (by simpa using kept), List.map_cons, strip_outcomeLine answered,
        spelled.code?_eq, ih]
      rfl

end CommandLine

/-! ### Main result -/

/--
A config file and a trace file load. `replay -v` prints one line for each sample, in order, with the
sample's time, and with the mark of a failed read where the read failed. Without these lines, and
each without its time and without the mark of a code that was held back, they are the lines that
`decode` prints for any words that name the readings of the trace in order: the code of each reading
in base sixteen, or `locked`. There are such words for every trace. `replay` prints the unmarked
lines of `replay -v`. None of the commands fails.
-/
theorem replay_agrees_with_decode (configured : loadSetup read config = .ok s)
    (recorded : loadTrace read trace = .ok t) :
    let verbose := (Command.replay config trace true).run read
    let terse := (Command.replay config trace false).run read
    let readings := t.filterMap Sample.reading
    (verbose.failure? = none ∧ terse.failure? = none) ∧
      List.Forall₂ (fun x line => TellsOf line x) t verbose.shown ∧
      (∀ words, List.Forall₂ (fun word raw => registerWord? word = some raw) words readings →
        let decoded := (Command.decode config words).run read
        decoded.failure? = none ∧
        decoded.shown = readings.map (fun raw => (decodedLine (s.decode raw)).toList) ∧
        decoded.shown = (verbose.shown.filter fun line => ¬ EndsIn line " read failed").map strip) ∧
      (∃ words, List.Forall₂ (fun word raw => registerWord? word = some raw) words readings) ∧
      terse.shown = verbose.shown.filter fun line => ¬ ∃ mark ∈ marks, EndsIn line mark := by
  intro verbose terse readings
  have told := t.forall₂_play s
  have verbose_shown : verbose.shown = (t.play s).map fun p => (outcomeLine p.1 p.2).toList := by
    rw [shown_replay configured recorded true, List.filter_eq_self.mpr fun p _ => Bool.true_or _]
  refine ⟨⟨?_, ?_⟩, ?_, ?_, ?_, ?_⟩
  · exact congrArg Printed.failure? (run_replay configured recorded true)
  · exact congrArg Printed.failure? (run_replay configured recorded false)
  · rw [verbose_shown, List.forall₂_map_right_iff]
    refine told.imp fun x p account => ?_
    rw [account.1]
    exact tellsOf_outcomeLine account.2
  · intro words named decoded
    have decoded_shown := shown_decode configured named
    refine ⟨?_, decoded_shown, ?_⟩
    · exact congrArg Printed.failure? ((run_decode configured words).trans (decodeWords_eq named))
    · rw [decoded_shown, verbose_shown, strip_lines told]
  · refine ⟨readings.map fun raw => hex raw.toNat, ?_⟩
    exact List.forall₂_map_left_iff.mpr (List.forall₂_same.mpr fun raw _ => registerWord?_hex raw)
  · rw [shown_replay configured recorded false, verbose_shown, List.filter_map]
    refine congrArg (List.map _) (List.filter_congr fun p _ => ?_)
    -- A line is shown by default exactly where it has no mark.
    rw [Bool.false_or, Bool.eq_iff_iff, Function.comp_apply, decide_eq_true_iff, marked_iff,
      Option.isSome_iff_ne_none]

/-- A key that is held down and let go, and then another key. -/
theorem replay_agrees_with_decode_bt848 :
    let verbose := (Command.replay "bt848.toml" "bt848.trace" true).run bt848Folder
    let terse := (Command.replay "bt848.toml" "bt848.trace" false).run bt848Folder
    let decoded :=
      (Command.decode "bt848.toml" ["5376", "0x15_00", "0X9500", "+768"]).run bt848Folder
    loadSetup bt848Folder "bt848.toml" = .ok bt848 ∧
      loadTrace bt848Folder "bt848.trace" = .ok bt848Trace ∧
      verbose.shown = ["0 0x15", "100 0x15 suppressed", "200 read failed", "300 locked",
        "600 0x3"].map String.toList ∧
      terse.shown = ["0 0x15", "600 0x3"].map String.toList ∧
      decoded.shown = ["0x15", "0x15", "locked", "0x3"].map String.toList := by
  intro verbose terse decoded
  have configured := loadSetup_bt848Folder
  have recorded := loadTrace_bt848Folder
  obtain ⟨-, -, decodes, -, unmarked⟩ := replay_agrees_with_decode configured recorded
  obtain ⟨-, -, stripped⟩ := decodes ["5376", "0x15_00", "0X9500", "+768"] (by decide +kernel)
  have verbose_shown : verbose.shown = ["0 0x15", "100 0x15 suppressed", "200 read failed",
    "300 locked",
      "600 0x3"].map String.toList := by decide +kernel
  refine ⟨configured, recorded, verbose_shown, ?_, ?_⟩
  · rw [unmarked, verbose_shown]
    decide +kernel
  · rw [stripped, verbose_shown]
    decide +kernel

end RemoteKeys
