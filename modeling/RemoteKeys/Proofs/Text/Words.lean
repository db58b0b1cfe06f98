import RemoteKeys.Proofs.Text.Contents

/-!
# The words of a text

Blanks at either end of a text belong to no word. A text that starts with none of them starts with
its first word, which is what cutting the first word off a slice relies on.

## Main statements

- `words_trim`: trimming takes no word away.
- `words_of_cutWord`: the first word and the words of the rest.
- `words_eq_singleton_iff`: a trimmed text is one word where no blank is in it.
-/

namespace RemoteKeys.Text

/-- The text starts with no blank. -/
def Flush (text : List Char) : Prop := ∀ c, text.head? = some c → isBlank c = false

theorem flush_dropWhile (text : List Char) : Flush (text.dropWhile isBlank) := by
  intro c first
  have last := List.head?_dropWhile_not isBlank text
  rw [first] at last
  simpa using last

theorem Flush.of_append {a b : List Char} (flush : Flush (a ++ b)) : Flush a := by
  intro c first
  apply flush c
  rw [List.head?_append, first, Option.some_or]

theorem Flush.eq_nil {text : List Char} (flush : Flush text)
    (blank : ∀ c ∈ text, isBlank c = true) :
    text = [] := by
  cases text with
  | nil => rfl
  | cons c rest =>
    have letter := flush c rfl
    rw [blank c List.mem_cons_self] at letter
    cases letter

theorem flush_trim (text : List Char) : Flush (trim text) := by
  obtain ⟨blanks, whole⟩ : trim text <+: text.dropWhile isBlank := List.rdropWhile_prefix ..
  have flush := flush_dropWhile text
  rw [← whole] at flush
  exact flush.of_append

theorem tight_trim (text : List Char) : Tight (trim text) := tight_trimEnd _

theorem trim_eq_self_iff {text : List Char} : trim text = text ↔ Flush text ∧ Tight text := by
  constructor
  · intro same
    rw [← same]
    exact ⟨flush_trim text, tight_trim text⟩
  · rintro ⟨flush, tight⟩
    rw [tight.trim_eq]
    cases text with
    | nil => rfl
    | cons c rest => rw [List.dropWhile_cons_of_neg (by simp [flush c rfl])]

/-- The text is trimmed and not empty, as contents and what is cut out of them are. -/
def IsContent (text : List Char) : Prop := trim text = text ∧ text ≠ []

theorem isContent_of_mem_contentsFrom {start : Nat} {text : List Char} {content : Slice}
    (mem : content ∈ contentsFrom start text) : IsContent content.chars := by
  obtain ⟨made, nonempty⟩ := List.mem_filter.mp mem
  obtain ⟨line, -, rfl⟩ := List.mem_map.mp made
  exact ⟨trim_eq_self_iff.mpr ⟨flush_trim _, tight_trim _⟩, of_decide_eq_true nonempty⟩

theorem isContent_of_mem_contents {source : List Char} {content : Slice}
    (mem : content ∈ contents source) :
    IsContent content.chars := @isContent_of_mem_contentsFrom 0 source content mem

/-! ### Blanks are in no word -/

theorem words_append_blank {c : Char} (blank : isBlank c = true) (a b : List Char) :
    words (a ++ c :: b) = words a ++ words b := by
  rw [words, words, words, List.splitOnP_append_cons a b blank, List.filter_append]

theorem words_nil : words [] = [] := by simp [words]

private theorem words_blanks_append {blanks : List Char} (blank : ∀ c ∈ blanks, isBlank c = true)
    (text : List Char) :
    words (blanks ++ text) = words text := by
  induction blanks with
  | nil => rfl
  | cons c rest ih =>
    obtain ⟨first, others⟩ := List.forall_mem_cons.mp blank
    have step := words_append_blank first [] (rest ++ text)
    rw [words_nil, List.nil_append, List.nil_append] at step
    rw [List.cons_append, step, ih others]

private theorem words_append_blanks {blanks : List Char} (blank : ∀ c ∈ blanks, isBlank c = true)
    (text : List Char) :
    words (text ++ blanks) = words text := by
  cases blanks with
  | nil => rw [List.append_nil]
  | cons c rest =>
    obtain ⟨first, others⟩ := List.forall_mem_cons.mp blank
    have gone := words_blanks_append others []
    rw [List.append_nil, words_nil] at gone
    rw [words_append_blank first, gone, List.append_nil]

private theorem words_dropWhile (text : List Char) :
    words (text.dropWhile isBlank) = words text := by
  conv_rhs => rw [← List.takeWhile_append_dropWhile (p := isBlank) (l := text)]
  rw [words_blanks_append fun c mem => List.mem_takeWhile_imp mem]

private theorem words_trimEnd (text : List Char) : words (trimEnd text) = words text := by
  have whole : trimEnd text ++ text.rtakeWhile isBlank = text := List.rdropWhile_append_rtakeWhile
  conv_rhs => rw [← whole]
  rw [words_append_blanks fun c mem => List.mem_rtakeWhile_imp mem]

theorem words_trim (text : List Char) : words (trim text) = words text := by
  rw [trim, words_trimEnd, words_dropWhile]

/-- No part of a split text holds a character that it is split at. -/
theorem forall_of_mem_splitOnP {p : Char → Bool} {text part : List Char}
    (mem : part ∈ text.splitOnP p) :
    ∀ c ∈ part, p c = false := by
  induction text generalizing part with
  | nil =>
    rw [List.splitOnP_nil, List.mem_singleton] at mem
    simp [mem]
  | cons c rest ih =>
    rw [List.splitOnP_cons_eq_if_modifyHead] at mem
    split at mem
    · rcases List.mem_cons.mp mem with rfl | later
      · simp
      · exact ih later
    next other =>
      -- The character goes to the front of the first part.
      obtain ⟨first, others, split⟩ := List.exists_cons_of_ne_nil (List.splitOnP_ne_nil p rest)
      rw [split, List.modifyHead_cons] at mem
      rw [split] at ih
      rcases List.mem_cons.mp mem with rfl | later
      · exact List.forall_mem_cons.mpr ⟨Bool.eq_false_iff.mpr other, ih List.mem_cons_self⟩
      · exact ih (List.mem_cons_of_mem _ later)

theorem isContent_of_mem_words {text word : List Char} (mem : word ∈ words text) :
    IsContent word := by
  obtain ⟨part, nonempty⟩ := List.mem_filter.mp mem
  have letters := forall_of_mem_splitOnP part
  refine ⟨trim_eq_self_iff.mpr ⟨?_, ?_⟩, by simpa using nonempty⟩
  · exact fun c first => letters c (List.mem_of_head? first)
  · exact fun c last => letters c (List.mem_of_getLast? last)

/-! ### The first word -/

theorem words_of_forall {text : List Char} (nonempty : text ≠ [])
    (letters : ∀ c ∈ text, isBlank c = false) : words text = [text] := by
  rw [words, List.splitOnP_eq_singleton letters]
  simp [nonempty]

private theorem words_eq_cons {text : List Char} (flush : Flush text) (nonempty : text ≠ []) :
    words text = text.takeWhile (!isBlank ·) :: words (text.dropWhile (!isBlank ·)) := by
  have whole := List.takeWhile_append_dropWhile (p := (!isBlank ·)) (l := text)
  have letters : ∀ c ∈ text.takeWhile (!isBlank ·), isBlank c = false := fun c mem => by
    simpa using List.mem_takeWhile_imp mem
  have first_there : text.takeWhile (!isBlank ·) ≠ [] := by
    obtain ⟨c, rest, rfl⟩ := List.exists_cons_of_ne_nil nonempty
    simp [flush c rfl]
  conv_lhs => rw [← whole]
  cases behind : text.dropWhile (!isBlank ·) with
  | nil => rw [List.append_nil, words_of_forall first_there letters, words_nil]
  | cons c rest =>
    -- A word ends at a blank.
    have blank : isBlank c = true := by
      have stop := List.head?_dropWhile_not (!isBlank ·) text
      rw [behind] at stop
      simpa using stop
    have dropped := words_append_blank blank [] rest
    rw [words_nil, List.nil_append, List.nil_append] at dropped
    rw [words_append_blank blank, words_of_forall first_there letters, dropped,
      List.singleton_append]

theorem words_eq_nil_iff {text : List Char} : words text = [] ↔ ∀ c ∈ text, isBlank c = true := by
  constructor
  · intro none_there
    rw [← words_dropWhile] at none_there
    apply List.dropWhile_eq_nil_iff.mp
    by_contra nonempty
    rw [words_eq_cons (flush_dropWhile text) nonempty] at none_there
    cases none_there
  · intro blank
    rw [← List.append_nil text, words_blanks_append blank, words_nil]

private theorem Tight.eq_nil {text : List Char} (tight : Tight text)
    (blank : ∀ c ∈ text, isBlank c = true) :
    text = [] := by
  cases last : text.getLast? with
  | none => exact List.getLast?_eq_none_iff.mp last
  | some c =>
    have letter := tight c last
    rw [blank c (List.mem_of_getLast? last)] at letter
    cases letter

theorem trim_eq_nil_iff {text : List Char} : trim text = [] ↔ ∀ c ∈ text, isBlank c = true := by
  rw [← words_eq_nil_iff, ← words_trim]
  constructor
  · intro empty
    rw [empty, words_nil]
  · intro none_there
    exact (tight_trim text).eq_nil (words_eq_nil_iff.mp none_there)

theorem words_eq_singleton_iff {text word : List Char} (flush : Flush text) (tight : Tight text) :
    words text = [word] ↔ text = word ∧ text ≠ [] ∧ ∀ c ∈ text, isBlank c = false := by
  constructor
  · intro one
    have nonempty : text ≠ [] := by
      rintro rfl
      rw [words_nil] at one
      cases one
    rw [words_eq_cons flush nonempty] at one
    obtain ⟨first, others⟩ := List.cons.inj one
    -- Nothing is behind the word: it would have to end in a blank.
    have whole := List.takeWhile_append_dropWhile (p := (!isBlank ·)) (l := text)
    have rest_tight : Tight (text.dropWhile (!isBlank ·)) := by
      rw [← whole] at tight
      exact tight.of_append
    rw [rest_tight.eq_nil (words_eq_nil_iff.mp others), List.append_nil] at whole
    refine ⟨whole.symm.trans first, nonempty, fun c mem => ?_⟩
    rw [← whole] at mem
    simpa using List.mem_takeWhile_imp mem
  · rintro ⟨rfl, nonempty, letters⟩
    exact words_of_forall nonempty letters

/-- Cutting the first word off leaves the others. -/
theorem words_of_cutWord {s first rest : Slice} (flush : Flush s.chars) (nonempty : s.chars ≠ [])
    (cut : s.cutWord = (first, rest)) :
    words s.chars = first.chars :: words rest.chars := by
  cases cut
  rw [words_eq_cons flush nonempty]
  exact congrArg _ (words_dropWhile _).symm

end RemoteKeys.Text
