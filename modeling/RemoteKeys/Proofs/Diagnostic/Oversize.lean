import RemoteKeys.Proofs.Trace.TimeLimit

/-!
# Numbers that are too large

A numeral may be well formed and still larger than what its place in a file allows, which is
something else than text that is no number. The readers tell the two apart as long as the number has
64 bits. A longer one is not read at all, and they take it for text.

## Main result

`reported_by_size_iff`: numbers are judged by their size exactly below `2 ^ 64`, as values of
parameters, as times and as readings; from there on they are said not to be numbers.

## Proof strategy

Each of the three readers gets one equation, with the value of the numeral in place of its text. A
line's other parts being in order, the reader's answer is the answer for the line, and with nothing
wrong above it the answer for the file.
-/

namespace RemoteKeys

open Text

variable {source above line below text time reading : List Char} {offset limit most m n : Nat}
  {d : ConfigFile.Draft}
  {p : Param} {t : Trace}

/-- The largest number that the parameter may be given, unless it is not given numbers. -/
def Param.most? : Param → Option Nat
  | .mask | .lockMask | .invertMask => some 4294967295
  | .gap => some 65535
  | .rate | .minor | .width => some 255
  | .trigger => none

/-- A number above the limit is reported as too large, where it is written. -/
def ReportsSize {ε α : Type} (result : Except ε α) (tooLarge : Slice → ε) (text : List Char)
    (limit n : Nat) : Prop :=
  limit < n → ∃ s : Slice, s.chars = text ∧ result = .error (tooLarge s)

private theorem reportsSize_iff {ε α : Type} {result : Except ε α} {tooLarge noNumber : Slice → ε}
    (fits : limit < 2 ^ 64) (apart : ∀ s s', tooLarge s ≠ noNumber s')
    (told : limit < n → ∃ s : Slice, s.chars = text ∧
      result = .error (if n < 2 ^ 64 then tooLarge s else noNumber s)) :
    (ReportsSize result tooLarge text limit n ↔ n < 2 ^ 64) ∧
      (2 ^ 64 ≤ n → ∃ s : Slice, s.chars = text ∧ result = .error (noNumber s)) := by
  have long (reached : 2 ^ 64 ≤ n) : ∃ s : Slice, s.chars = text ∧
      result = .error (noNumber s) := by
    obtain ⟨s, here, failed⟩ := told (Nat.lt_of_lt_of_le fits reached)
    exact ⟨s, here, by rw [failed, if_neg (Nat.not_lt.mpr reached)]⟩
  refine ⟨⟨fun reports => Nat.lt_of_not_le fun reached => ?_, fun short behind => ?_⟩, long⟩
  · obtain ⟨s, -, sized⟩ := reports (Nat.lt_of_lt_of_le fits reached)
    obtain ⟨s', -, unread⟩ := long reached
    exact apart s s' (Except.error.inj (sized.symm.trans unread))
  · obtain ⟨s, here, failed⟩ := told behind
    exact ⟨s, here, by rw [failed, if_pos short]⟩

/-! ### Values of parameters -/

namespace ConfigFile

/-- The line gives a parameter a number. The lines above it are in order and do not set the
parameter. -/
structure NumberLine (above line : List Char) (d : Draft) (p : Param) (text : List Char)
    (n : Nat) : Prop where
  in_order : readContents {} (contents above) = .ok d
  begun : d.begun = true
  unset : ¬ d.Sets p
  entry : IsEntry (contentText line) (p, text)
  numeral : IsNumeral text n

/-- The lines up to this one are read, and give the parameter that value. -/
def Accepts (above line : List Char) (d : Draft) (p : Param) (text : List Char) : Prop :=
  ∃ x, Gives (p, text) x ∧
    readContents {} (contents (above ++ line)) = .ok { d with settings := d.settings ++ [x] }

private theorem readNumber_of_isNumeral {value : Slice} (fits : most < 2 ^ 64)
    (numeral : IsNumeral value.chars n) :
    readNumber most value =
      if n ≤ most then .ok n
      else .error (if n < 2 ^ 64 then .tooLarge value else .badNumber value) :=
  numeral.read_eq fun _ within => Nat.lt_of_le_of_lt within fits

/-- A parameter that is given numbers is set to one, in a way of its own. -/
theorem exists_readSetting_eq (numeric : p.most? = some most) : most < 2 ^ 64 ∧
    ∃ make : Nat → Setting, ∀ value, readSetting p value = (readNumber most value).map make := by
  cases p with
  | trigger => cases numeric
  | mask | lockMask | invertMask =>
    cases numeric
    exact ⟨by decide, _, fun value => Except.map_map⟩
  | gap | rate | minor | width =>
    cases numeric
    exact ⟨by decide, _, fun value => rfl⟩

namespace NumberLine

/-- What becomes of the line is decided by the size of the number. -/
theorem exists_add_eq (numeric : p.most? = some most) (number : NumberLine above line d p text n) :
    ∃ (value : Slice) (x : Setting), value.chars = text ∧ (n ≤ most → Gives (p, text) x) ∧
      d.add (Statement.ofContent (⟨byteLength above, line⟩ : Slice).content) =
        if n ≤ most then .ok { d with settings := d.settings ++ [x] }
        else .error (if n < 2 ^ 64 then .tooLarge value else .badNumber value) := by
  obtain ⟨fits, make, setting⟩ := exists_readSetting_eq numeric
  have entry : IsEntry (⟨byteLength above, line⟩ : Slice).content.chars (p, text) := number.entry
  obtain ⟨name, value, assignment, named, rfl⟩ := exists_assignment_of_isEntry (tight_trim _) entry
  have found : Param.ofName? name.chars = some p := by rw [named, Param.ofName?_name]
  have there : ¬ value.IsEmpty := number.numeral.ne_nil
  have value_read := setting value
  rw [readNumber_of_isNumeral fits number.numeral] at value_read
  refine ⟨value, make n, rfl, fun within => ?_, ?_⟩
  · rw [if_pos within] at value_read
    exact readSetting_ok_iff.mp value_read
  · -- The name is known and new, and there is a value: all that can go wrong is the number.
    rw [assignment, Draft.add, if_pos number.begun, Draft.assign, found]
    dsimp only
    rw [if_neg number.unset, if_neg there, value_read]
    split <;> rfl

private theorem there (number : NumberLine above line d p text n) : contentText line ≠ [] := by
  obtain ⟨before, after, split, -⟩ := number.entry
  rw [split]
  exact List.append_ne_nil_of_right_ne_nil before (List.cons_ne_nil '=' after)

private theorem accepts_iff (numeric : p.most? = some most)
    (number : NumberLine above line d p text n) (cut : LineAt source offset above line below) :
    Accepts above line d p text ↔ n ≤ most := by
  obtain ⟨value, x, -, gives, added⟩ := number.exists_add_eq numeric
  rw [← readContents_ending cut number.there number.in_order] at added
  constructor
  · rintro ⟨_, -, taken⟩
    by_contra behind
    rw [added, if_neg behind] at taken
    cases taken
  · intro within
    rw [if_pos within] at added
    exact ⟨x, gives within, added⟩

/-- A number that the parameter may not have is what is wrong with the file. -/
theorem exists_value_fault (numeric : p.most? = some most)
    (number : NumberLine above line d p text n) (cut : LineAt source offset above line below)
    (behind : most < n) :
    ∃ value : Slice, value.chars = text ∧
      read source = .error (if n < 2 ^ 64 then .tooLarge value else .badNumber value) := by
  obtain ⟨value, _, here, -, failed⟩ := number.exists_add_eq numeric
  rw [if_neg (Nat.not_le.mpr behind)] at failed
  exact ⟨value, here, read_of_add_error cut number.there number.in_order failed⟩

end NumberLine

end ConfigFile

/-! ### Readings -/

namespace Trace

private theorem readReading_of_isNumeral {word : Slice} (numeral : IsNumeral word.chars n) :
    readReading word =
    if n < wordLimit then .ok (some (BitVec.ofNat _ n))
    else .error (if n < 2 ^ 64 then .wideReading word else .badReading word) := by
  have not_failed : word.chars ≠ failWord.toList := by
    intro same
    -- The word of a failed read is a numeral of no number, however large.
    have unread : digits? (splitBase (failWord.toList.filter (· ≠ '_'))).1
        (splitBase (failWord.toList.filter (· ≠ '_'))).2 = none := by decide
    rw [same, isNumeral_iff, unread] at numeral
    cases numeral
  rw [readReading, if_neg not_failed]
  exact numeral.read_eq fun _ narrow => Nat.lt_trans narrow (by decide)

/-- Where the time is in order, a number that is no register word is what is wrong with the file. -/
theorem SampleLine.exists_reading_fault (sample : SampleLine above line t time reading)
    (cut : LineAt source offset above line below) (timed : IsNumeral time m)
    (within : m ≤ timeLimitMs) (passed : ∀ x ∈ t, x.timeMs ≤ m) (numeral : IsNumeral reading n)
    (wide : wordLimit ≤ n) :
    ∃ word : Slice, word.chars = reading ∧
      read source = .error (if n < 2 ^ 64 then .wideReading word else .badReading word) := by
  obtain ⟨first, second, rfl, rfl, reads⟩ := sample.exists_words
  have in_order : ¬ m < reached 0 t := Nat.not_lt.mpr (reached_le (Nat.zero_le m) passed)
  refine ⟨second, rfl, sample.read_eq_error cut ?_⟩
  rw [reads, readTime_of_isNumeral timed, if_pos within, readReading_of_isNumeral numeral,
    if_neg (Nat.not_lt.mpr wide)]
  change (if m < reached 0 t then _ else _) = _
  rw [if_neg in_order]
  rfl

end Trace

/-! ### All three -/

/--
A file is cut at a line whose number is a numeral of any length, and everything else up to there is
in order. In a config file the number is accepted exactly when the parameter may have it. One that
is too large is reported as such if and only if it has 64 bits, and otherwise said to be no number.
The same goes for the times of a trace and for what was read then.
-/
theorem reported_by_size_iff (cut : LineAt source offset above line below) :
    (∀ d p text most n, p.most? = some most → ConfigFile.NumberLine above line d p text n →
      (ConfigFile.Accepts above line d p text ↔ n ≤ most) ∧
        (ReportsSize (ConfigFile.read source) .tooLarge text most n ↔ n < 2 ^ 64) ∧
        (2 ^ 64 ≤ n → ∃ value : Slice, value.chars = text ∧
          ConfigFile.read source = .error (.badNumber value))) ∧
      (∀ t time reading n, Trace.SampleLine above line t time reading → IsNumeral time n →
        (ReportsSize (Trace.read source) .lateTime time Trace.timeLimitMs n ↔ n < 2 ^ 64) ∧
          (2 ^ 64 ≤ n → ∃ word : Slice, word.chars = time ∧
            Trace.read source = .error (.badTime word))) ∧
      ∀ t time reading m n, Trace.SampleLine above line t time reading → IsNumeral time m →
        m ≤ Trace.timeLimitMs → (∀ x ∈ t, x.timeMs ≤ m) → IsNumeral reading n →
        (ReportsSize (Trace.read source) .wideReading reading 4294967295 n ↔ n < 2 ^ 64) ∧
          (2 ^ 64 ≤ n → ∃ word : Slice, word.chars = reading ∧
            Trace.read source = .error (.badReading word)) := by
  refine ⟨fun d p text most n numeric number => ⟨number.accepts_iff numeric cut, ?_⟩,
    fun t time reading n sample numeral => ?_,
    fun t time reading m n sample timed within passed numeral => ?_⟩
  · have fits := (ConfigFile.exists_readSetting_eq numeric).1
    exact reportsSize_iff fits nofun (number.exists_value_fault numeric cut)
  · exact reportsSize_iff (by decide) nofun (sample.exists_time_fault cut numeral)
  · exact reportsSize_iff (by decide) nofun
      (sample.exists_reading_fault cut timed within passed numeral)

/-- A mask with one bit too many, and the largest reading of 64 bits, each with lines around it. -/
theorem reported_by_size_iff_wide :
    let card := "[gpio_ir]\nminor = 1\ngpio_mask = 0x1_0000_0000 # lines\nsoft_gap = 300".toList
    let trace := "1 fail\n\t5 +18446744073709551615".toList
    (∃ value : Slice, value.chars = "0x1_0000_0000".toList ∧
        ConfigFile.read card = .error (.tooLarge value)) ∧
      ∃ word : Slice, word.chars = "+18446744073709551615".toList ∧
        Trace.read trace = .error (.wideReading word) := by
  intro card trace
  have card_cut :
      LineAt card 20 "[gpio_ir]\nminor = 1\n".toList "gpio_mask = 0x1_0000_0000 # lines".toList
      "\nsoft_gap = 300".toList :=
    ⟨by decide, .inr (by decide), by decide, .inr (by decide), by decide, .inr (by decide)⟩
  have trace_cut : LineAt trace 7 "1 fail\n".toList "\t5 +18446744073709551615".toList [] :=
    ⟨by decide, .inr (by decide), by decide, .inl rfl, by decide, .inl rfl⟩
  have mask :
      ConfigFile.NumberLine "[gpio_ir]\nminor = 1\n".toList
        "gpio_mask = 0x1_0000_0000 # lines".toList
      ⟨true, [.minor 1]⟩ .mask "0x1_0000_0000".toList 4294967296 :=
    ⟨by decide +kernel, rfl, by decide, ⟨"gpio_mask ".toList, " 0x1_0000_0000".toList,
      by decide, by decide, by decide, by decide⟩, isNumeral_iff.mpr (by decide +kernel)⟩
  have sample :
      Trace.SampleLine "1 fail\n".toList "\t5 +18446744073709551615".toList [⟨1, none⟩] ['5']
      "+18446744073709551615".toList := ⟨by decide +kernel, by decide +kernel⟩
  have time : IsNumeral ['5'] 5 := isNumeral_iff.mpr (by decide)
  have largest : IsNumeral "+18446744073709551615".toList 18446744073709551615 :=
    isNumeral_iff.mpr (by decide +kernel)
  have values := (reported_by_size_iff card_cut).1 _ _ _ _ _ rfl mask
  have readings :=
    (reported_by_size_iff trace_cut).2.2 _ _ _ _ _ sample time (by decide) (by decide) largest
  exact ⟨values.2.1.mpr (by decide) (by decide), readings.1.mpr (by decide) (by decide)⟩

/-- The first number of 65 bits is reported by its size in none of the three places. -/
theorem not_reportsSize_first_long :
    let long := "18446744073709551616".toList
    let mask := "[gpio_ir]\ngpio_mask = 18446744073709551616\n".toList
    let time := "18446744073709551616 1\n".toList
    let reading := "1 18446744073709551616\n".toList
    IsNumeral long (2 ^ 64) ∧
      (ConfigFile.read mask = .error (.badNumber ⟨22, long⟩) ∧
        ¬ ReportsSize (ConfigFile.read mask) .tooLarge long 4294967295 (2 ^ 64)) ∧
      (Trace.read time = .error (.badTime ⟨0, long⟩) ∧
        ¬ ReportsSize (Trace.read time) .lateTime long Trace.timeLimitMs (2 ^ 64)) ∧
      Trace.read reading = .error (.badReading ⟨2, long⟩) ∧
        ¬ ReportsSize (Trace.read reading) .wideReading long 4294967295 (2 ^ 64) := by
  intro long mask time reading
  have mask_read : ConfigFile.read mask = .error (.badNumber ⟨22, long⟩) := by decide +kernel
  have time_read : Trace.read time = .error (.badTime ⟨0, long⟩) := by decide +kernel
  have reading_read : Trace.read reading = .error (.badReading ⟨2, long⟩) := by decide +kernel
  refine ⟨isNumeral_iff.mpr (by decide +kernel), ⟨mask_read, fun reports => ?_⟩,
    ⟨time_read, fun reports => ?_⟩, reading_read, fun reports => ?_⟩
  · obtain ⟨value, -, sized⟩ := reports (by decide)
    rw [mask_read] at sized
    cases sized
  · obtain ⟨word, -, sized⟩ := reports (by decide)
    rw [time_read] at sized
    cases sized
  · obtain ⟨word, -, sized⟩ := reports (by decide)
    rw [reading_read] at sized
    cases sized

end RemoteKeys
