import RemoteKeys.Proofs.ConfigFile.Faults
import RemoteKeys.Proofs.Except
import RemoteKeys.Proofs.Text.Decoration
import RemoteKeys.Proofs.Trace.Faults

/-!
# Decorated files

Blanks and comments may be put at the ends of a file's lines, and taken off them. The file says what
it said before, and where it was at fault it is told of the same fault, at the same line and column.

## Main result

`read_decorated`: a file and the same file decorated are read alike, as config files and as trace
files.

## Proof strategy

The contents of the two files are the same, each of them moved by some bytes. All readers look at
the characters of a slice alone and pass its start on to the faults, so that they commute with
`Slice.move`. As the shown part of a fault lies in a content, it stands in the second file where its
counterpart stands in the first one.
-/

namespace RemoteKeys

open Text

/-! ### Moved trace lines -/

namespace Trace

/-- The fault of a slice that is so many bytes further on. -/
def Fault.move (k : Nat) : Fault → Fault
  | notSample line => notSample (line.move k)
  | badTime time => badTime (time.move k)
  | lateTime time => lateTime (time.move k)
  | earlierTime line => earlierTime (line.move k)
  | badReading reading => badReading (reading.move k)
  | wideReading reading => wideReading (reading.move k)

private theorem Fault.message_move (k : Nat) (fault : Fault) :
    (fault.move k).message = fault.message := by
  cases fault <;> rfl

private theorem Fault.slice_move (k : Nat) (fault : Fault) :
    (fault.move k).slice = fault.slice.move k := by
  cases fault <;> rfl

private theorem fields?_move (k : Nat) (content : Slice) :
    fields? (content.move k) = (fields? content).map fun words =>
      (words.1.move k, words.2.move k) := by
  unfold fields?
  rw [Slice.cutWord_move]
  dsimp only
  -- Whether there are two words is a question about characters, and these are not moved.
  by_cases two : ¬ content.cutWord.2.IsEmpty ∧ content.cutWord.2.chars.all (!isBlank ·)
  · have moved_two : ¬ (content.cutWord.2.move k).IsEmpty ∧
        (content.cutWord.2.move k).chars.all (!isBlank ·) := two
    rw [if_pos two, if_pos moved_two]
    rfl
  · have moved_other :
        ¬ (¬ (content.cutWord.2.move k).IsEmpty ∧
          (content.cutWord.2.move k).chars.all (!isBlank ·)) := two
    rw [if_neg two, if_neg moved_other]
    rfl

private theorem readTime_move (k : Nat) (time : Slice) :
    readTime (time.move k) = (readTime time).mapError (Fault.move k) := by
  unfold readTime
  rw [Slice.chars_move]
  split
  · rfl
  · split <;> rfl

private theorem readReading_move (k : Nat) (reading : Slice) :
    readReading (reading.move k) = (readReading reading).mapError (Fault.move k) := by
  unfold readReading
  rw [Slice.chars_move]
  split
  · rfl
  · split
    · rfl
    · split <;> rfl

private theorem readSample_move (earliest k : Nat) (content : Slice) :
    readSample earliest (content.move k) =
      (readSample earliest content).mapError (Fault.move k) := by
  unfold readSample
  rw [fields?_move]
  cases fields? content with
  | none => rfl
  | some words =>
    dsimp only [Option.map_some]
    rw [readTime_move, Except.mapError_bind]
    congr 1
    funext timeMs
    rw [readReading_move]
    split
    · rfl
    · rw [Except.mapError_bind]
      rfl

end Trace

/-! ### Moved config lines -/

namespace ConfigFile

/-- The fault of a slice that is so many bytes further on. -/
def Fault.move (k : Nat) : Fault → Fault
  | unclosedHeader line => unclosedHeader (line.move k)
  | unknownSection line name => unknownSection (line.move k) name
  | repeatedSection line => repeatedSection (line.move k)
  | outsideSection line => outsideSection (line.move k)
  | notAssignment line => notAssignment (line.move k)
  | unknownParam name => unknownParam (name.move k)
  | repeatedParam name => repeatedParam (name.move k)
  | missingValue line => missingValue (line.move k)
  | badTrigger value => badTrigger (value.move k)
  | badNumber value => badNumber (value.move k)
  | tooLarge value => tooLarge (value.move k)
  | missingSection => missingSection
  | missingMask => missingMask

private theorem Fault.message_move (k : Nat) (fault : Fault) :
    (fault.move k).message = fault.message := by
  cases fault <;> rfl

private theorem Fault.slice?_move (k : Nat) (fault : Fault) :
    (fault.move k).slice? = fault.slice?.map (Slice.move k) := by
  cases fault <;> rfl

/-- The statement of a line that is so many bytes further on. -/
def Statement.move (k : Nat) : Statement → Statement
  | header line name => header (line.move k) name
  | openHeader line => openHeader (line.move k)
  | assignment line name value => assignment (line.move k) (name.move k) (value.move k)
  | other line => other (line.move k)

private theorem ofContent_move (k : Nat) (content : Slice) :
    Statement.ofContent (content.move k) = (Statement.ofContent content).move k := by
  unfold Statement.ofContent
  rw [Slice.chars_move]
  split
  · split <;> rfl
  · rw [Slice.cut?_move]
    cases content.cut? '=' with
    | none => rfl
    | some sides =>
      dsimp only [Option.map_some, Statement.move]
      rw [Slice.trimEnd_move, Slice.trimStart_move]

private theorem readNumber_move (most k : Nat) (value : Slice) :
    readNumber most (value.move k) = (readNumber most value).mapError (Fault.move k) := by
  unfold readNumber
  rw [Slice.chars_move]
  split
  · rfl
  · split <;> rfl

private theorem readSetting_move (p : Param) (k : Nat) (value : Slice) :
    readSetting p (value.move k) = (readSetting p value).mapError (Fault.move k) := by
  cases p with
  | trigger =>
    simp only [readSetting, Slice.chars_move]
    split <;> rfl
  | _ => simp only [readSetting, readLines, readNumber_move, Except.mapError_map]

private theorem Draft.assign_move (d : Draft) (k : Nat) (line name value : Slice) :
    d.assign (line.move k) (name.move k) (value.move k) =
      (d.assign line name value).mapError (Fault.move k) := by
  unfold assign
  rw [Slice.chars_move]
  split
  · rfl
  · split
    · rfl
    · by_cases empty : value.IsEmpty
      · have moved_empty : (value.move k).IsEmpty := empty
        rw [if_pos empty, if_pos moved_empty]
        rfl
      · have moved_there : ¬ (value.move k).IsEmpty := empty
        rw [if_neg empty, if_neg moved_there, readSetting_move, Except.mapError_map]

private theorem Draft.add_move (d : Draft) (k : Nat) (statement : Statement) :
    d.add (statement.move k) = (d.add statement).mapError (Fault.move k) := by
  cases statement with
  | openHeader line => rfl
  | header line name =>
    simp only [Statement.move, add]
    split
    · rfl
    · split <;> rfl
  | assignment line name value =>
    simp only [Statement.move, add]
    split
    · exact d.assign_move k line name value
    · rfl
  | other line =>
    simp only [Statement.move, add]
    split <;> rfl

end ConfigFile

/-! ### The same diagnostic -/

/-- The diagnostics have the same message, at the same line and column. Both select the same text,
or none. -/
structure Diagnostic.SameIn (source decorated : List Char) (d d' : Diagnostic) : Prop where
  message : d'.message = d.message
  line : (d'.place decorated).line = (d.place source).line
  column : (d'.place decorated).column = (d.place source).column
  marked : Option.Rel (fun span span' => ∃ marked, span.Marks source marked ∧
    span'.Marks decorated marked)
    d.span? d'.span?

variable {source decorated : List Char}

private theorem Diagnostic.SameIn.of_samePlace {s : Slice} {k : Nat} (message : String)
    (same : SamePlace source decorated k s) :
    SameIn source decorated ⟨message, some s.span⟩ ⟨message, some (s.move k).span⟩ := by
  obtain ⟨number, front, on, moved_on⟩ := same
  obtain ⟨line, column⟩ := on.line_column
  obtain ⟨moved_line, moved_column⟩ := moved_on.line_column
  exact ⟨rfl, moved_line.trans line.symm, moved_column.trans column.symm,
    .some ⟨s.chars, on.marks, moved_on.marks⟩⟩

/-! ### Whole files -/

namespace Trace

/-- The faults are told of by the same diagnostic. -/
abbrev Fault.SameIn (source decorated : List Char) (fault fault' : Fault) : Prop :=
  fault.diagnostic.SameIn source decorated fault'.diagnostic

private theorem Fault.Concerns.sameIn_move {fault : Fault} {content : Slice} {k : Nat}
    (concerns : fault.Concerns content) (same : SamePlace source decorated k content) :
    fault.SameIn source decorated (fault.move k) := by
  rw [SameIn, diagnostic, diagnostic, message_move, slice_move]
  exact .of_samePlace fault.message (same.of_partOf concerns.1)

private theorem alike_readContents {cs cs' : List Slice}
    (pairs : List.Forall₂ (ContentPair source decorated) cs cs')
    (proper : ∀ content ∈ cs, IsContent content.chars) (earliest : Nat) :
    Except.Alike (Fault.SameIn source decorated) (readContents earliest cs)
    (readContents earliest cs') := by
  -- Over the contents, from any time: both files go on from the same sample, or end with the same
  -- fault.
  induction pairs generalizing earliest with
  | nil => exact .ok []
  | @cons content content' rest rest' pair _ ih =>
    obtain ⟨k, rfl, same⟩ := pair
    obtain ⟨content_proper, rest_proper⟩ := List.forall_mem_cons.mp proper
    have here : Except.Alike (Fault.SameIn source decorated) (readSample earliest content)
        (readSample earliest (content.move k)) := by
      rw [readSample_move]
      exact Except.alike_mapError fun fault failed =>
        (concerns_of_readSample content_proper failed).sameIn_move same
    rw [readContents, readContents]
    exact here.bind fun sample => (ih rest_proper sample.timeMs).bind fun later =>
      .ok (sample :: later)

end Trace

namespace ConfigFile

/-- The faults are told of by the same diagnostic. -/
abbrev Fault.SameIn (source decorated : List Char) (fault fault' : Fault) : Prop :=
  fault.diagnostic.SameIn source decorated fault'.diagnostic

private theorem Fault.Concerns.sameIn_move {fault : Fault} {content : Slice} {k : Nat}
    (concerns : fault.Concerns content) (same : SamePlace source decorated k content) :
    fault.SameIn source decorated (fault.move k) := by
  obtain ⟨s, shown, part, -⟩ := concerns
  rw [SameIn, diagnostic, diagnostic, message_move, slice?_move, shown]
  exact .of_samePlace fault.message (same.of_partOf part)

private theorem alike_readContents {cs cs' : List Slice}
    (pairs : List.Forall₂ (ContentPair source decorated) cs cs')
    (proper : ∀ content ∈ cs, IsContent content.chars) (d : Draft) :
    Except.Alike (Fault.SameIn source decorated) (readContents d cs) (readContents d cs') := by
  -- Over the contents, from any draft.
  induction pairs generalizing d with
  | nil => exact .ok d
  | @cons content content' rest rest' pair _ ih =>
    obtain ⟨k, rfl, same⟩ := pair
    obtain ⟨content_proper, rest_proper⟩ := List.forall_mem_cons.mp proper
    have here : Except.Alike (Fault.SameIn source decorated) (d.add (Statement.ofContent content))
        (d.add (Statement.ofContent (content.move k))) := by
      rw [ofContent_move, Draft.add_move]
      exact Except.alike_mapError fun fault failed =>
        (Draft.concerns_of_add content_proper failed).sameIn_move same
    rw [readContents, readContents, List.foldlM_cons, List.foldlM_cons]
    exact here.bind (ih rest_proper)

/-- What is missing from a whole file is told of without a place. -/
theorem Draft.alike_config (d : Draft) :
    Except.Alike (Fault.SameIn source decorated) d.config d.config := by
  apply Except.Alike.refl
  intro fault failed
  unfold config at failed
  split at failed
  · cases failed
    exact ⟨rfl, rfl, rfl, .none⟩
  · split at failed
    · cases failed
      exact ⟨rfl, rfl, rfl, .none⟩
    · cases failed

end ConfigFile

/--
A file whose lines are decorated at their ends is read as the file was: the result is the same, or
the error has the same message, line and column, and its span selects the same text.
-/
theorem read_decorated (decorates : Decorated source decorated) :
    Except.Alike (ConfigFile.Fault.SameIn source decorated) (ConfigFile.read source)
        (ConfigFile.read decorated) ∧
      Except.Alike (Trace.Fault.SameIn source decorated) (Trace.read source)
        (Trace.read decorated) := by
  have pairs := forall₂_contents_of_decorated decorates
  have proper : ∀ content ∈ contents source, IsContent content.chars :=
    fun _ mem => isContent_of_mem_contents mem
  constructor
  · exact (ConfigFile.alike_readContents pairs proper {}).bind fun d => d.alike_config
  · exact Trace.alike_readContents pairs proper 0

/--
Line feeds become CR LF, a comment gets longer, a blank line becomes a comment behind a blank of two
bytes, and the last line, which has no end, gets a comment too. A card has a fault on its last line,
a trace is read, and a trace whose last time goes back has its fault at the same place.
-/
theorem read_decorated_crlf :
    let card := "[gpio_ir]\nminor = 3 #\n\n gpio_m\u00e4sk = 1".toList
    let card' := "[gpio_ir]\r\nminor = 3 ## low\r\n\u00a0# none\n gpio_m\u00e4sk = 1\t# keys".toList
    let trace := "7 0x1500\n\n9 fail".toList
    let trace' := "7 0x1500\t# down\r\n\u00a0# pause\n9 fail\r#".toList
    let torn := "7 0x1500\n\n 5 fail".toList
    let torn' := "7 0x1500\t# down\r\n\u00a0# pause\n 5 fail\r#".toList
    let unknown (start : Nat) : ConfigFile.Fault :=
      .unknownParam ⟨start, "gpio_m\u00e4sk".toList⟩
    let earlier (start : Nat) : Trace.Fault := .earlierTime ⟨start, "5 fail".toList⟩
    (Decorated card card' ∧ ConfigFile.read card = .error (unknown 24) ∧
        ConfigFile.read card' = .error (unknown 39) ∧
        Except.Alike (ConfigFile.Fault.SameIn card card')
          (ConfigFile.read card) (ConfigFile.read card') ∧
        Except.Alike (Trace.Fault.SameIn card card') (Trace.read card) (Trace.read card')) ∧
      (Decorated trace trace' ∧ Trace.read trace = .ok [⟨7, some 0x1500⟩, ⟨9, none⟩] ∧
        Trace.read trace' = .ok [⟨7, some 0x1500⟩, ⟨9, none⟩]) ∧
      Decorated torn torn' ∧ Trace.read torn = .error (earlier 11) ∧
        Trace.read torn' = .error (earlier 28) ∧
        (((earlier 11).diagnostic.place torn).line = 3 ∧
          ((earlier 11).diagnostic.place torn).column = 2) ∧
        ((earlier 28).diagnostic.place torn').line = 3 ∧
          ((earlier 28).diagnostic.place torn').column = 2 := by
  intro card card' trace trace' torn torn' unknown earlier
  have card_decorated : Decorated card card' := by decide +kernel
  have trace_decorated : Decorated trace trace' := by decide +kernel
  have torn_decorated : Decorated torn torn' := by decide +kernel
  have loaded : Trace.read trace = .ok [⟨7, some 0x1500⟩, ⟨9, none⟩] := by decide +kernel
  have loaded' : Trace.read trace' = .ok [⟨7, some 0x1500⟩, ⟨9, none⟩] := by
    have alike := (read_decorated trace_decorated).2
    rw [loaded] at alike
    cases alike
    rfl
  have failed : Trace.read torn = .error (earlier 11) := by decide +kernel
  have failed' : Trace.read torn' = .error (earlier 28) := by decide +kernel
  have same : (earlier 11).SameIn torn torn' (earlier 28) := by
    have alike := (read_decorated torn_decorated).2
    rw [failed, failed'] at alike
    cases alike with
    | error same => exact same
  have line : ((earlier 11).diagnostic.place torn).line = 3 := by decide +kernel
  have column : ((earlier 11).diagnostic.place torn).column = 2 := by decide +kernel
  exact ⟨⟨card_decorated, by decide +kernel, by decide +kernel, read_decorated card_decorated⟩,
    ⟨trace_decorated, loaded, loaded'⟩, torn_decorated, failed, failed', ⟨line, column⟩,
    same.line.trans line, same.column.trans column⟩

end RemoteKeys
