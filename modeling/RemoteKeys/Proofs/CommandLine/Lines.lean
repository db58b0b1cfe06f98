import RemoteKeys.CommandLine.Run
import RemoteKeys.Proofs.Cards
import RemoteKeys.Proofs.Playback.Pace
import RemoteKeys.Proofs.Text.Rendering

/-!
# Printed lines

What is seen of a command is the text that it printed. This module reads the lines back from that
text, and says how those of a play-back are made: each is a time, a blank and what became of the
reading, which is a code unless the reading was locked or failed. Whatever is no key to report is
marked at the end of its line, and no other line ends so.

## Main statements

- `shown_eq`: the lines that are seen are the lines that were printed, if no line end is in them.
- `behindTime_outcomeLine`: what stands behind the time.
- `endsIn_outcomeLine_iff`: a line ends in a mark exactly when it has that mark.
- `strip_outcomeLine`: without its time and its mark, a line of a play-back is a line of `decode`.
- `shown_replay`, `shown_decode`: the lines that the two commands print.
-/

namespace RemoteKeys

/-- What stands at the end of a line, unless the line is a key to report. -/
def Outcome.mark? : Outcome → Option String
  | key _ => none
  | held _ => some " suppressed"
  | locked => some " locked"
  | unread => some " read failed"

namespace CommandLine

open Text

/-- The lines of what was printed. The last one may lack its end. -/
def Printed.shown (p : Printed) : List (List Char) :=
  let parts := p.text.toList.splitOn '\n'
  if parts.getLast? = some [] then parts.dropLast else parts

/-- The line ends in that text. -/
def EndsIn (line : List Char) (text : String) : Prop := text.toList <:+ line

instance (line : List Char) (text : String) : Decidable (EndsIn line text) :=
  inferInstanceAs (Decidable (text.toList <:+ line))

/-- What stands on a line behind its first blank. -/
def behindTime (line : List Char) : List Char := (line.dropWhile (· ≠ ' ')).tail

/-- A line without its time, and without the mark of a code that was held back. -/
def strip (line : List Char) : List Char :=
  ((behindTime line).dropSuffix? " suppressed".toList).getD (behindTime line)

/-- The marks of lines that are no keys to report. -/
def marks : List String := [" suppressed", " locked", " read failed"]

/-- What is told of an outcome behind its time. -/
def outcomeText : Outcome → String
  | .key code => hex code.toNat
  | .held code => hex code.toNat ++ " suppressed"
  | .locked => "locked"
  | .unread => "read failed"

/-! ### Lines of a text -/

theorem splitOn_flatMap {lines : List (List Char)} (single : ∀ line ∈ lines, '\n' ∉ line) :
    (lines.flatMap (· ++ ['\n'])).splitOn '\n' = lines ++ [[]] := by
  induction lines with
  | nil => rfl
  | cons line rest ih =>
    obtain ⟨first, others⟩ := List.forall_mem_cons.mp single
    rw [List.flatMap_cons, List.append_assoc, List.singleton_append, List.splitOn_append_cons_self,
      List.splitOn_eq_singleton first, ih others, List.singleton_append, List.cons_append]

theorem Printed.toList_text (p : Printed) :
    p.text.toList = (p.lines.map String.toList).flatMap (· ++ ['\n']) := by
  rw [text, String.toList_ofList, List.flatMap_map]

private theorem Printed.shown_eq {p : Printed} (single : ∀ line ∈ p.lines, '\n' ∉ line.toList) :
    p.shown = p.lines.map String.toList := by
  have parts : p.text.toList.splitOn '\n' = p.lines.map String.toList ++ [[]] := by
    rw [toList_text]
    exact splitOn_flatMap (List.forall_mem_map.mpr single)
  rw [shown, parts, List.getLast?_concat, if_pos rfl, List.dropLast_concat]

/-! ### Lines of a play-back -/

theorem toList_outcomeLine (timeMs : Nat) (o : Outcome) :
    (outcomeLine timeMs o).toList = (toString timeMs).toList ++ ' ' :: (outcomeText o).toList := by
  have blank : " ".toList = [' '] := by decide
  have line : outcomeLine timeMs o = toString timeMs ++ " " ++ outcomeText o := by cases o <;> rfl
  rw [line, String.toList_append, String.toList_append, blank, List.append_assoc,
    List.singleton_append]

private theorem ne_blank_of_mem_toString {timeMs : Nat} {c : Char}
    (mem : c ∈ (toString timeMs).toList) : c ≠ ' ' := by
  rintro rfl
  exact absurd (mem_numeralLetters_toString mem) (by decide)

private theorem behindTime_outcomeLine (timeMs : Nat) (o : Outcome) :
    behindTime (outcomeLine timeMs o).toList = (outcomeText o).toList := by
  have time : ∀ c ∈ (toString timeMs).toList, decide (c ≠ ' ') = true := fun c mem =>
    decide_eq_true (ne_blank_of_mem_toString mem)
  rw [toList_outcomeLine, behindTime, List.dropWhile_append_of_pos time,
    List.dropWhile_cons_of_neg (by decide), List.tail_cons]

/-- A line of a key to report is made of the characters of numbers and of a blank. -/
theorem mem_keyLine {timeMs : Nat} {code : Code} {c : Char}
    (mem : c ∈ (outcomeLine timeMs (.key code)).toList) :
    c ∈ ' ' :: numeralLetters := by
  rw [toList_outcomeLine, List.mem_append, List.mem_cons] at mem
  rcases mem with time | rfl | letter
  · exact List.mem_cons_of_mem _ (mem_numeralLetters_toString time)
  · exact List.mem_cons_self
  · exact List.mem_cons_of_mem _ (mem_numeralLetters_hex letter)

theorem newline_not_mem_outcomeLine (timeMs : Nat) (o : Outcome) :
    '\n' ∉ (outcomeLine timeMs o).toList := by
  have time : '\n' ∉ (toString timeMs).toList := fun mem =>
    absurd (mem_numeralLetters_toString mem) (by decide)
  have code_line (n : Nat) : '\n' ∉ (hex n).toList := fun mem =>
    absurd (mem_numeralLetters_hex mem) (by decide)
  rw [toList_outcomeLine, List.mem_append, List.mem_cons, not_or, not_or]
  refine ⟨time, by decide, ?_⟩
  cases o with
  | key code => exact code_line _
  | held code =>
    rw [outcomeText, String.toList_append, List.mem_append, not_or]
    exact ⟨code_line _, by decide⟩
  | locked => decide
  | unread => decide

private theorem newline_not_mem_decodedLine (code? : Option Code) :
    '\n' ∉ (decodedLine code?).toList := by
  cases code? with
  | none => decide
  | some code => exact fun mem => absurd (mem_numeralLetters_hex mem) (by decide)

/-! ### Marks -/

private theorem mark_mem_marks {o : Outcome} {mark : String} (marked : o.mark? = some mark) :
    mark ∈ marks := by
  cases o <;> cases marked <;> decide

private theorem endsIn_of_suffix {text : String} {o : Outcome}
    (ends : text.toList <:+ (outcomeText o).toList) (timeMs : Nat) :
    EndsIn (outcomeLine timeMs o).toList text := by
  rw [EndsIn, toList_outcomeLine]
  exact List.suffix_append_of_suffix (ends.trans (List.suffix_cons _ _))

private theorem endsIn_of_mark? {o : Outcome} {mark : String} (marked : o.mark? = some mark)
    (timeMs : Nat) :
    EndsIn (outcomeLine timeMs o).toList mark := by
  cases o with
  | key code => cases marked
  | held code =>
    cases marked
    apply endsIn_of_suffix
    rw [outcomeText, String.toList_append]
    exact List.suffix_append _ _
  | locked | unread =>
    -- The blank of the mark is the one behind the time.
    cases marked
    rw [EndsIn, toList_outcomeLine]
    exact List.suffix_append _ _

private theorem not_endsIn_of_key {mark : String} (listed : mark ∈ marks) (timeMs : Nat)
    (code : Code) :
    ¬ EndsIn (outcomeLine timeMs (.key code)).toList mark := by
  intro ends
  -- Every mark has a letter that stands in no number.
  have strange : ∀ mark ∈ marks, mark.toList.any (· ∉ ' ' :: numeralLetters) = true := by decide
  obtain ⟨c, mem, foreign⟩ := List.any_eq_true.mp (strange mark listed)
  exact of_decide_eq_true foreign (mem_keyLine (ends.subset mem))

theorem endsIn_outcomeLine_iff {mark : String} (listed : mark ∈ marks) (timeMs : Nat)
    (o : Outcome) :
    EndsIn (outcomeLine timeMs o).toList mark ↔ o.mark? = some mark := by
  refine ⟨fun ends => ?_, fun marked => endsIn_of_mark? marked timeMs⟩
  cases marked : o.mark? with
  | none =>
    obtain ⟨code, rfl⟩ : ∃ code, o = .key code := by
      cases o <;> cases marked
      exact ⟨_, rfl⟩
    exact absurd ends (not_endsIn_of_key listed timeMs code)
  | some own =>
    -- Of two ends of one line, the shorter one ends the other.
    have apart : ∀ mark ∈ marks, ∀ own ∈ marks, mark.toList <:+ own.toList → own = mark := by decide
    rcases List.suffix_or_suffix_of_suffix ends (endsIn_of_mark? marked timeMs) with inner | outer
    · rw [apart mark listed own (mark_mem_marks marked) inner]
    · rw [apart own (mark_mem_marks marked) mark listed outer]

/-- The keys to report are the lines without a mark. -/
theorem marked_iff (timeMs : Nat) (o : Outcome) :
    (∃ mark ∈ marks, EndsIn (outcomeLine timeMs o).toList mark) ↔ o.key? = none := by
  constructor
  · rintro ⟨mark, listed, ends⟩
    have marked := (endsIn_outcomeLine_iff listed timeMs o).mp ends
    cases o <;> cases marked <;> rfl
  · intro silent
    obtain ⟨mark, marked⟩ : ∃ mark, o.mark? = some mark := by
      cases o <;> cases silent <;> exact ⟨_, rfl⟩
    exact ⟨mark, mark_mem_marks marked, endsIn_of_mark? marked timeMs⟩

theorem strip_outcomeLine {o : Outcome} (read : o ≠ .unread) (timeMs : Nat) :
    strip (outcomeLine timeMs o).toList = (decodedLine o.code?).toList := by
  have suppressed : " suppressed" ∈ marks := List.mem_cons_self
  have whole (unheld : o.mark? ≠ some " suppressed") :
      strip (outcomeLine timeMs o).toList = (outcomeText o).toList := by
    -- Such an end would be the mark of a code that was held back.
    have uncut : (outcomeText o).toList.dropSuffix? " suppressed".toList = none := by
      refine Option.eq_none_iff_forall_ne_some.mpr fun front cut => ?_
      obtain ⟨mark, split, same⟩ := List.dropSuffix?_eq_some_iff.mp cut
      rw [beq_iff_eq.mp same] at split
      have ends : EndsIn (outcomeLine timeMs o).toList " suppressed" :=
        endsIn_of_suffix (split ▸ List.suffix_append _ _) timeMs
      exact unheld ((endsIn_outcomeLine_iff suppressed timeMs o).mp ends)
    rw [strip, behindTime_outcomeLine, uncut, Option.getD_none]
  cases o with
  | key code => exact whole nofun
  | held code =>
    have cut : (outcomeText (.held code)).toList.dropSuffix? " suppressed".toList =
        some (hex code.toNat).toList :=
      List.dropSuffix?_eq_some_iff.mpr ⟨_,
        by rw [outcomeText, String.toList_append], beq_self_eq_true _⟩
    rw [strip, behindTime_outcomeLine, cut]
    rfl
  | locked => exact whole (by decide)
  | unread => exact absurd rfl read

/-! ### What the commands print -/

theorem registerWord?_eq_some_iff {text : String} {raw : Word} :
    registerWord? text = some raw ↔ numeral? text.toList = some raw.toNat := by
  rw [registerWord?, Option.map_eq_some_iff]
  constructor
  · rintro ⟨n, found, rfl⟩
    obtain ⟨read, fits⟩ := Option.filter_eq_some_iff.mp found
    have same : (BitVec.ofNat 32 n).toNat = n := Nat.mod_eq_of_lt (of_decide_eq_true fits)
    rw [read, same]
  · intro read
    refine ⟨raw.toNat, Option.filter_eq_some_iff.mpr ⟨read, decide_eq_true raw.isLt⟩, ?_⟩
    rw [BitVec.ofNat_toNat, BitVec.setWidth_eq]

variable {read : Reader} {config trace : String} {s : Setup} {t : Trace}

theorem run_replay (configured : loadSetup read config = .ok s)
    (recorded : loadTrace read trace = .ok t) (verbose : Bool) :
    (Command.replay config trace verbose).run read =
      { lines := playedLines verbose (t.play s) } := by
  rw [Command.run, Command.print, configured]
  simp only [bind, Except.bind, recorded]
  rfl

theorem run_decode (configured : loadSetup read config = .ok s) (words : List String) :
    (Command.decode config words).run read = decodeWords s words := by
  rw [Command.run, Command.print, configured]
  rfl

/-- Words that name readings are told of before those behind them, which alone may fail. -/
theorem decodeWords_append {before : List String} {readings : List Word}
    (named : List.Forall₂ (fun word raw => registerWord? word = some raw) before readings)
    (after : List String) :
    decodeWords s (before ++ after) =
      { lines := (readings.map fun raw => decodedLine (s.decode raw)) ++ (decodeWords s after).lines
        failure? := (decodeWords s after).failure? } := by
  induction named with
  | nil => rfl
  | cons first _ ih => rw [List.cons_append, decodeWords, first, ih]; rfl

theorem decodeWords_eq {words : List String} {readings : List Word}
    (named : List.Forall₂ (fun word raw => registerWord? word = some raw) words readings) :
    decodeWords s words = { lines := readings.map fun raw => decodedLine (s.decode raw) } := by
  have alone := decodeWords_append named (s := s) []
  rw [List.append_nil, decodeWords, List.append_nil] at alone
  exact alone

theorem registerWord?_hex (raw : Word) : registerWord? (hex raw.toNat) = some raw := by
  have fits : raw.toNat < wordLimit := raw.isLt
  exact registerWord?_eq_some_iff.mpr (numeral?_hex (Nat.le_trans (Nat.le_of_lt fits) (by decide)))

theorem shown_replay (configured : loadSetup read config = .ok s)
    (recorded : loadTrace read trace = .ok t) (verbose : Bool) :
    ((Command.replay config trace verbose).run read).shown =
      ((t.play s).filter fun p => verbose || p.2.key?.isSome).map fun p =>
        (outcomeLine p.1 p.2).toList := by
  rw [run_replay configured recorded, Printed.shown_eq, playedLines, List.map_map]
  · rfl
  · intro line printed
    obtain ⟨p, -, rfl⟩ := List.mem_map.mp printed
    exact newline_not_mem_outcomeLine p.1 p.2

theorem shown_decode (configured : loadSetup read config = .ok s) {words : List String}
    {readings : List Word}
    (named : List.Forall₂ (fun word raw => registerWord? word = some raw) words readings) :
    ((Command.decode config words).run read).shown =
      readings.map fun raw => (decodedLine (s.decode raw)).toList := by
  rw [run_decode configured, decodeWords_eq named, Printed.shown_eq, List.map_map]
  · rfl
  · intro line printed
    obtain ⟨raw, -, rfl⟩ := List.mem_map.mp printed
    exact newline_not_mem_decodedLine _

/-! ### The files of a card -/

theorem loadSetup_bt848Folder : loadSetup bt848Folder "bt848.toml" = .ok bt848 := by decide +kernel

theorem loadTrace_bt848Folder : loadTrace bt848Folder "bt848.trace" = .ok bt848Trace := by
  decide +kernel

end CommandLine

end RemoteKeys
