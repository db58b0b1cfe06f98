import Mathlib.Data.List.Forall2
import Mathlib.Data.List.Nodup
import RemoteKeys.ConfigFile
import RemoteKeys.Proofs.Except
import RemoteKeys.Proofs.Text.Contents

/-!
# The grammar of config files

A config file is a section header and entries, each a parameter with the text of its value. This
module says so without slices, drafts or faults, and shows that reading follows the grammar: it
succeeds on the config files alone, and what it gives depends on their entries as a set.

## Main result

`read_ok_iff_grammar`: a text is read exactly when it is a config file; the configuration has the
value of every entry, and defaults for the parameters without one; the order of entries is nothing
to it.

## Proof strategy

`Draft.add` does one of two things: before the section it takes a header, and in it an entry of a
parameter that was not set before. By induction over the contents, the draft after them lists the
entries' settings. Settings of different parameters do not disturb each other, so that applying the
list gives each parameter its own value, wherever it stands.
-/

namespace RemoteKeys

open Text

/-- The text is a way to write the value of the setting. -/
def Setting.Written : Setting → List Char → Prop
  | .mask lines, text | .lockMask lines, text | .invertMask lines, text =>
    numeral? text = some lines.toNat
  | .gap n, text => numeral? text = some n ∧ n ≤ 65535
  | .rate n, text | .minor n, text | .width n, text => numeral? text = some n ∧ n ≤ 255
  | .trigger t, text => text = t.name.toList

instance Setting.decidableWritten : (x : Setting) → (text : List Char) → Decidable (x.Written text)
  | .mask lines, text | .lockMask lines, text | .invertMask lines, text =>
    inferInstanceAs (Decidable (numeral? text = some lines.toNat))
  | .gap n, text => inferInstanceAs (Decidable (numeral? text = some n ∧ n ≤ 65535))
  | .rate n, text | .minor n, text | .width n, text =>
    inferInstanceAs (Decidable (numeral? text = some n ∧ n ≤ 255))
  | .trigger t, text => inferInstanceAs (Decidable (text = t.name.toList))

/-- The value that a configuration has for a parameter. -/
def Config.settingOf (c : Config) : Param → Setting
  | .mask => .mask c.mask
  | .lockMask => .lockMask c.lockMask
  | .invertMask => .invertMask c.invertMask
  | .gap => .gap c.gapMs
  | .rate => .rate c.rate
  | .minor => .minor c.minor
  | .width => .width c.width
  | .trigger => .trigger c.trigger

/-- The value of a parameter without an entry; only the gap's depends on the trigger. -/
def Param.default (trigger : Trigger) : Param → Setting
  | .mask => .mask 0
  | .lockMask => .lockMask 0
  | .invertMask => .invertMask 0
  | .gap => .gap (match trigger with | .polled => 0 | .interrupt => 400)
  | .rate => .rate 10
  | .minor => .minor 0
  | .width => .width 0
  | .trigger => .trigger .polled

namespace ConfigFile

/-- A parameter with the text of its value. -/
abbrev Entry := Param × List Char

/-- The name of the section between brackets. -/
def IsHeader (text : List Char) : Prop :=
  ∃ inside, text = '[' :: (inside ++ [']']) ∧ trim inside = "gpio_ir".toList

/-- The name of the parameter, the first equals sign and the text of the value. -/
def IsEntry (text : List Char) (e : Entry) : Prop :=
  ∃ before after, text = before ++ '=' :: after ∧ '=' ∉ before ∧
    trimEnd before = e.1.name.toList ∧ trim after = e.2

/-- The entry gives its parameter that value. -/
def Gives (e : Entry) (x : Setting) : Prop := x.param = e.1 ∧ x.Written e.2

/-- The text of the value is there, and means something for the parameter. -/
def Legal (e : Entry) : Prop := e.2 ≠ [] ∧ ∃ x, Gives e x

/-- The text is a config file with these entries. -/
structure IsConfigFile (source : List Char) (entries : List Entry) : Prop where
  lines : ∃ header lines, contentTexts source = header :: lines ∧ IsHeader header ∧
    List.Forall₂ IsEntry lines entries
  legal : ∀ e ∈ entries, Legal e
  once : (entries.map Prod.fst).Nodup
  mask : Param.mask ∈ entries.map Prod.fst

/-- The text is a section with these entries, among which the mask may be missing. -/
structure IsSection (source : List Char) (entries : List Entry) : Prop where
  lines : ∃ header lines, contentTexts source = header :: lines ∧ IsHeader header ∧
    List.Forall₂ IsEntry lines entries
  legal : ∀ e ∈ entries, Legal e
  once : (entries.map Prod.fst).Nodup

/-- The configuration has the value of every entry, and defaults for the parameters without one. -/
structure Describes (entries : List Entry) (c : Config) : Prop where
  given : ∀ e ∈ entries, (c.settingOf e.1).Written e.2
  missing : ∀ p, p ∉ entries.map Prod.fst → c.settingOf p = p.default c.trigger

/-! ### Reading values -/

private theorem readNumber_ok_iff {most n : Nat} {value : Slice} :
    readNumber most value = .ok n ↔ numeral? value.chars = some n ∧ n ≤ most := by
  unfold readNumber
  cases read : numeral? value.chars with
  | none => simp
  | some m =>
    by_cases fits : m ≤ most
    · simp only [fits, if_true, Except.ok.injEq, Option.some.injEq]
      exact ⟨fun same => ⟨same, same ▸ fits⟩, fun h => h.1⟩
    · simp only [fits, if_false, reduceCtorEq, false_iff]
      rintro ⟨⟨⟩, small⟩
      exact fits small

private theorem readLines_ok_iff {w : Word} {value : Slice} :
    readLines value = .ok w ↔ numeral? value.chars = some w.toNat := by
  rw [readLines, Except.map_eq_ok_iff]
  constructor
  · rintro ⟨n, read, rfl⟩
    obtain ⟨read, fits⟩ := readNumber_ok_iff.mp read
    rw [read, BitVec.toNat_ofNat, Nat.mod_eq_of_lt]
    simp only [wordLimit] at fits
    omega
  · intro read
    have fits : w.toNat ≤ wordLimit - 1 := by
      have := w.isLt
      simp only [wordLimit]
      omega
    exact ⟨w.toNat, readNumber_ok_iff.mpr ⟨read, fits⟩, BitVec.ofNat_toNat ..⟩

private theorem ofName?_eq_some_iff {text : List Char} {t : Trigger} :
    Trigger.ofName? text = some t ↔ text = t.name.toList := by
  constructor
  · intro found
    have same := List.find?_some found
    simpa [eq_comm] using same
  · rintro rfl
    cases t <;> decide

theorem readSetting_ok_iff {p : Param} {value : Slice} {x : Setting} :
    readSetting p value = .ok x ↔ x.param = p ∧ x.Written value.chars := by
  cases p with
  | trigger =>
    cases x with
    | trigger t =>
      simp only [readSetting, Setting.param, Setting.Written, true_and, ← ofName?_eq_some_iff]
      cases Trigger.ofName? value.chars <;> simp
    | _ => cases found : Trigger.ofName? value.chars <;> simp [readSetting, found, Setting.param]
  | _ =>
    cases x <;> simp [readSetting, Except.map_eq_ok_iff, readLines_ok_iff, readNumber_ok_iff,
      Setting.param, Setting.Written, gapLimitMs, byteLimit]

/-! ### One line -/

private theorem Draft.assign_ok_iff {d d' : Draft} {line name value : Slice} :
    d.assign line name value = .ok d' ↔ ∃ x : Setting, name.chars = x.param.name.toList ∧
      ¬ d.Sets x.param ∧ value.chars ≠ [] ∧ x.Written value.chars ∧
      d' = { d with settings := d.settings ++ [x] } := by
  constructor
  · intro returned
    unfold assign at returned
    split at returned
    · cases returned
    next p found =>
      split at returned
      · cases returned
      next unset =>
        split at returned
        · cases returned
        next there =>
          obtain ⟨x, read, made⟩ := Except.map_eq_ok_iff.mp returned
          obtain ⟨rfl, written⟩ := readSetting_ok_iff.mp read
          exact ⟨x, (Param.name_of_ofName? found).symm, unset, there, written, made.symm⟩
  · rintro ⟨x, named, unset, there, written, rfl⟩
    have found : Param.ofName? name.chars = some x.param := by rw [named, Param.ofName?_name]
    have nonempty : ¬ value.IsEmpty := there
    simp only [assign, found, unset, nonempty, if_false]
    exact Except.map_eq_ok_iff.mpr ⟨x, readSetting_ok_iff.mpr ⟨rfl, written⟩, rfl⟩

private theorem Draft.add_header_iff {d d' : Draft} {content : Slice} (outside : d.begun = false) :
    d.add (Statement.ofContent content) = .ok d' ↔
      IsHeader content.chars ∧ d' = { d with begun := true } := by
  constructor
  · intro returned
    unfold Statement.ofContent at returned
    split at returned
    next rest bracket =>
      split at returned
      next closed =>
        obtain ⟨inside, rfl⟩ := List.getLast?_eq_some_iff.mp closed
        simp only [add, List.dropLast_concat, outside, Bool.false_eq_true, if_false] at returned
        split at returned
        · cases returned
        next named =>
          exact ⟨⟨inside, bracket, Decidable.not_not.mp named⟩, (Except.ok.inj returned).symm⟩
      · cases returned
    · split at returned <;> simp [add, outside] at returned
  · rintro ⟨⟨inside, bracket, named⟩, rfl⟩
    have header : Statement.ofContent content = .header content (trim inside) := by
      simp [Statement.ofContent, bracket]
    simp [header, add, named, sectionName, outside]

private theorem name_head (p : Param) : ∃ c rest, p.name.toList = c :: rest ∧ c ≠ '[' := by
  cases p <;> exact ⟨_, _, rfl, by decide⟩

/-- An entry is no header: no name of a parameter starts with a bracket. -/
private theorem head_ne_bracket {text before after : List Char} {p : Param}
    (split : text = before ++ after) (named : trimEnd before = p.name.toList) :
    text.head? ≠ some '[' := by
  obtain ⟨c, rest, name, other⟩ := name_head p
  obtain ⟨blanks, whole⟩ : trimEnd before <+: before := List.rdropWhile_prefix ..
  rw [split, ← whole, named, name]
  simpa using other

theorem exists_assignment_of_isEntry {content : Slice} {e : Entry} (tight : Tight content.chars)
    (entry : IsEntry content.chars e) :
    ∃ name value, Statement.ofContent content = .assignment content name value ∧
      name.chars = e.1.name.toList ∧ value.chars = e.2 := by
  obtain ⟨before, after, split, first, named, trimmed⟩ := entry
  obtain ⟨name, value, cut, rfl, rfl⟩ := Slice.exists_cut? split first
  refine ⟨name.trimEnd, value.trimStart, ?_, named, ?_⟩
  · have other := head_ne_bracket split named
    unfold Statement.ofContent
    split
    next rest bracket => simp [bracket] at other
    · rw [cut]
  · -- The content ends in no blank, so that the value is trimmed at its front only.
    rw [split, List.append_cons] at tight
    rw [← trimmed]
    exact tight.of_append.trim_eq.symm

/-- In the section, a line can only be an entry of a parameter that was not set before. -/
theorem Draft.add_entry_iff {d d' : Draft} {content : Slice} (inside : d.begun = true)
    (tight : Tight content.chars) :
    d.add (Statement.ofContent content) = .ok d' ↔ ∃ e x, IsEntry content.chars e ∧ Gives e x ∧
      e.2 ≠ [] ∧ ¬ d.Sets x.param ∧ d' = { d with settings := d.settings ++ [x] } := by
  constructor
  · intro returned
    unfold Statement.ofContent at returned
    split at returned
    · split at returned
      · simp only [add, inside, if_true] at returned
        split at returned <;> cases returned
      · cases returned
    · split at returned
      next name value cut =>
        obtain ⟨split, first⟩ := Slice.chars_of_cut? cut
        simp only [add, inside, if_true] at returned
        obtain ⟨x, named, unset, there, written, made⟩ := assign_ok_iff.mp returned
        -- The content ends in no blank, so that the value is trimmed at its front only.
        have trimmed : trim value.chars = value.trimStart.chars := by
          rw [split, List.append_cons] at tight
          exact tight.of_append.trim_eq
        exact ⟨(x.param, trim value.chars), x, ⟨name.chars, value.chars, split, first, named, rfl⟩,
          ⟨rfl, trimmed ▸ written⟩, trimmed ▸ there, unset, made⟩
      · simp [add, inside] at returned
  · rintro ⟨e, x, entry, ⟨param, written⟩, there, unset, rfl⟩
    obtain ⟨name, value, assignment, named, valued⟩ := exists_assignment_of_isEntry tight entry
    rw [assignment, add, if_pos inside]
    refine assign_ok_iff.mpr ⟨x, ?_, unset, ?_, ?_, rfl⟩
    · rw [param, named]
    · rwa [valued]
    · rwa [valued]

/-! ### All lines -/

/-- The lines of the section are entries of different parameters, and the draft lists their
settings. -/
theorem readContents_ok_iff {d d' : Draft} (inside : d.begun = true) (contents : List Slice)
    (tight : ∀ content ∈ contents, Tight content.chars)
    (unique : (d.settings.map Setting.param).Nodup) :
    readContents d contents = .ok d' ↔ ∃ entries xs,
      List.Forall₂ IsEntry (contents.map Slice.chars) entries ∧ List.Forall₂ Gives entries xs ∧
      (∀ e ∈ entries, e.2 ≠ []) ∧ ((d.settings ++ xs).map Setting.param).Nodup ∧
      d' = { d with settings := d.settings ++ xs } := by
  -- Over the lines that are left: each appends one setting to the draft, of a parameter it did not
  -- have.
  induction contents generalizing d with
  | nil =>
    constructor
    · rintro ⟨⟩
      exact ⟨[], [], .nil, .nil, by simp, by simpa using unique, by simp⟩
    · rintro ⟨entries, xs, read, gives, -, -, rfl⟩
      cases read
      cases gives
      simp [readContents, pure, Except.pure]
  | cons content rest ih =>
    have content_tight := tight content (by simp)
    have rest_tight : ∀ content ∈ rest, Tight content.chars := fun c mem => tight c (by simp [mem])
    rw [readContents, List.foldlM_cons, Except.bind_eq_ok_iff]
    constructor
    · rintro ⟨next, added, returned⟩
      obtain ⟨e, x, entry, gives, there, unset, rfl⟩ :=
        (Draft.add_entry_iff inside content_tight).mp added
      have next_inside : ({ d with settings := d.settings ++ [x] } : Draft).begun = true := inside
      have next_unique : ((d.settings ++ [x]).map Setting.param).Nodup := by
        rw [List.map_append]
        exact List.Nodup.append unique (by simp) (by simpa [Draft.Sets] using unset)
      obtain ⟨entries, xs, read, rest_gives, rest_there, nodup, rfl⟩ :=
        (ih next_inside rest_tight next_unique).mp returned
      refine ⟨e :: entries, x :: xs, .cons entry read, .cons gives rest_gives, ?_, ?_, by simp⟩
      · exact List.forall_mem_cons.mpr ⟨there, rest_there⟩
      · simpa using nodup
    · rintro ⟨_, _, read, gives, there, nodup, rfl⟩
      obtain ⟨e, entries, entry, rest_read, rfl⟩ := List.forall₂_cons_left_iff.mp read
      obtain ⟨x, xs, e_gives, rest_gives, rfl⟩ := List.forall₂_cons_left_iff.mp gives
      obtain ⟨e_there, rest_there⟩ := List.forall_mem_cons.mp there
      rw [List.append_cons] at nodup
      have next_inside : ({ d with settings := d.settings ++ [x] } : Draft).begun = true := inside
      have next_unique : ((d.settings ++ [x]).map Setting.param).Nodup := by
        rw [List.map_append] at nodup
        exact nodup.of_append_left
      have unset : ¬ d.Sets x.param := by
        rw [List.map_append, List.nodup_append_comm] at next_unique
        exact (List.nodup_cons.mp next_unique).1
      have added :=
        (Draft.add_entry_iff inside content_tight).mpr ⟨e, x, entry, e_gives, e_there, unset, rfl⟩
      exact ⟨_, added, (ih next_inside rest_tight next_unique).mpr
        ⟨entries, xs, rest_read, rest_gives, rest_there, nodup, by simp⟩⟩

/-! ### The configuration -/

private theorem settingOf_apply (c : Config) (x : Setting) (p : Param) :
    (x.apply c).settingOf p = if x.param = p then x else c.settingOf p := by
  cases x <;> cases p <;> rfl

private theorem settingOf_foldl_of_not_mem {c : Config} {xs : List Setting} {p : Param}
    (absent : p ∉ xs.map Setting.param) :
    (xs.foldl Setting.apply c).settingOf p = c.settingOf p := by
  induction xs generalizing c with
  | nil => rfl
  | cons x rest ih =>
    simp only [List.map_cons, List.mem_cons, not_or] at absent
    rw [List.foldl_cons, ih absent.2, settingOf_apply, if_neg (Ne.symm absent.1)]

private theorem settingOf_foldl_of_mem {c : Config} {xs : List Setting} {x : Setting}
    (unique : (xs.map Setting.param).Nodup) (mem : x ∈ xs) :
    (xs.foldl Setting.apply c).settingOf x.param = x := by
  induction xs generalizing c with
  | nil => cases mem
  | cons y rest ih =>
    obtain ⟨fresh, rest_unique⟩ := List.nodup_cons.mp unique
    rw [List.foldl_cons]
    rcases List.mem_cons.mp mem with rfl | later
    · -- No later setting is of this parameter, so that none overrides it.
      rw [settingOf_foldl_of_not_mem fresh, settingOf_apply, if_pos rfl]
    · exact ih rest_unique later

private theorem Draft.trigger_of_not_sets {d : Draft} (unset : ¬ d.Sets .trigger) :
    d.trigger = .polled := by
  have none_set : d.settings.findSome? Setting.trigger? = none := by
    rw [List.findSome?_eq_none_iff]
    intro x mem
    cases x with
    | trigger t => exact absurd (List.mem_map.mpr ⟨_, mem, rfl⟩) unset
    | _ => rfl
  rw [Draft.trigger, none_set, Option.getD_none]

/-- The trigger that the defaults are chosen by is the one of the configuration. -/
theorem Draft.trigger_foldl {d : Draft} (unique : (d.settings.map Setting.param).Nodup) :
    (d.settings.foldl Setting.apply (Draft.defaults d.trigger)).trigger = d.trigger := by
  cases found : d.settings.findSome? Setting.trigger? with
  | none =>
    -- No setting is of the trigger, and the defaults of a polled card are those of a polled card.
    have unset : Param.trigger ∉ d.settings.map Setting.param := by
      intro set
      obtain ⟨x, mem, param⟩ := List.mem_map.mp set
      have none_set := List.findSome?_eq_none_iff.mp found x mem
      cases x <;> simp_all [Setting.param, Setting.trigger?]
    have kept := settingOf_foldl_of_not_mem (c := Draft.defaults d.trigger) unset
    have same := Setting.trigger.inj kept
    rw [same, Draft.trigger_of_not_sets unset]
    rfl
  | some t =>
    -- The first setting of the trigger is the only one.
    obtain ⟨x, mem, set⟩ := List.exists_of_findSome?_eq_some found
    have chosen : d.trigger = t := by rw [Draft.trigger, found, Option.getD_some]
    cases x with
    | trigger t' =>
      cases set
      have kept := settingOf_foldl_of_mem (c := Draft.defaults d.trigger) unique mem
      rw [chosen] at kept ⊢
      exact Setting.trigger.inj kept
    | _ => cases set

private theorem Draft.config_ok_iff {d : Draft} {c : Config} : d.config = .ok c ↔
    d.begun = true ∧ d.Sets .mask ∧ d.settings.foldl Setting.apply (Draft.defaults d.trigger) =
      c := by
  unfold Draft.config
  by_cases begun : d.begun = true
  · by_cases mask : d.Sets .mask
    · simp [begun, mask]
    · simp [begun, mask]
  · simp [begun]

theorem map_fst_entries {entries : List Entry} {xs : List Setting}
    (gives : List.Forall₂ Gives entries xs) : entries.map Prod.fst = xs.map Setting.param := by
  induction gives with
  | nil => rfl
  | cons head _ ih => rw [List.map_cons, List.map_cons, ih, head.1]

private theorem exists_gives {entries : List Entry} {xs : List Setting}
    (gives : List.Forall₂ Gives entries xs) {e : Entry} (mem : e ∈ entries) :
    ∃ x ∈ xs, Gives e x := by
  induction gives with
  | nil => cases mem
  | @cons a x entries xs head _ ih =>
    rcases List.mem_cons.mp mem with rfl | later
    · exact ⟨x, by simp, head⟩
    · obtain ⟨y, member, given⟩ := ih later
      exact ⟨y, List.mem_cons_of_mem _ member, given⟩

private theorem Draft.describes {d : Draft} {entries : List Entry}
    (gives : List.Forall₂ Gives entries d.settings)
    (unique : (d.settings.map Setting.param).Nodup) :
    Describes entries (d.settings.foldl Setting.apply (Draft.defaults d.trigger)) := by
  constructor
  · intro e mem
    obtain ⟨x, member, param, written⟩ := exists_gives gives mem
    rw [← param, settingOf_foldl_of_mem unique member]
    exact written
  · intro p absent
    rw [map_fst_entries gives] at absent
    rw [settingOf_foldl_of_not_mem absent, Draft.trigger_foldl unique]
    cases p with
    | trigger =>
      rw [Draft.trigger_of_not_sets absent]
      rfl
    | _ => cases d.trigger <;> rfl

/-! ### One configuration for a set of entries -/

private theorem written_unique {x y : Setting} {text : List Char} (hx : x.Written text)
    (hy : y.Written text) (same : x.param = y.param) : x = y := by
  cases x <;> cases y <;> simp_all [Setting.Written, Setting.param, BitVec.toNat_inj]
  next t u => cases t <;> cases u <;> simp_all [Trigger.name]

private theorem param_settingOf (c : Config) (p : Param) : (c.settingOf p).param = p := by
  cases p <;> rfl

private theorem eq_of_settingOf_eq {a b : Config} (same : ∀ p, a.settingOf p = b.settingOf p) :
    a = b := by
  have mask := same .mask
  have lockMask := same .lockMask
  have invertMask := same .invertMask
  have gap := same .gap
  have rate := same .rate
  have minor := same .minor
  have width := same .width
  have trigger := same .trigger
  cases a
  cases b
  simp_all [Config.settingOf]

theorem Describes.unique {entries : List Entry} {a b : Config} (ha : Describes entries a)
    (hb : Describes entries b) : a = b := by
  have agree (p : Param) (default_agrees : p.default a.trigger = p.default b.trigger) :
      a.settingOf p = b.settingOf p := by
    by_cases given : p ∈ entries.map Prod.fst
    · -- The text of a value spells one setting of the parameter at most.
      obtain ⟨e, mem, rfl⟩ := List.mem_map.mp given
      exact written_unique (ha.given e mem) (hb.given e mem)
        (by rw [param_settingOf, param_settingOf])
    · rw [ha.missing p given, hb.missing p given, default_agrees]
  -- The triggers agree first: the default of the gap depends on them.
  have trigger := Setting.trigger.inj (agree .trigger rfl)
  exact eq_of_settingOf_eq fun p => agree p (by rw [trigger])

private theorem Describes.of_mem_iff {entries others : List Entry} {c : Config}
    (describes : Describes entries c) (same : ∀ e, e ∈ entries ↔ e ∈ others) :
    Describes others c := by
  constructor
  · intro e mem
    exact describes.given e ((same e).mpr mem)
  · intro p absent
    apply describes.missing p
    intro given
    obtain ⟨e, mem, param⟩ := List.mem_map.mp given
    exact absent (List.mem_map.mpr ⟨e, (same e).mp mem, param⟩)

/-! ### Whole files -/

private theorem read_cons {source : List Char} {header : Slice} {rest : List Slice} {d : Draft}
    {c : Config} (split : contents source = header :: rest) (named : IsHeader header.chars)
    (rest_read : readContents { begun := true } rest = .ok d) (worked : d.config = .ok c) :
    read source = .ok c := by
  have added := (Draft.add_header_iff (d := {}) rfl).mpr ⟨named, rfl⟩
  rw [read, split, readContents, List.foldlM_cons]
  exact Except.bind_eq_ok_iff.mpr ⟨d, Except.bind_eq_ok_iff.mpr ⟨_, added, rest_read⟩, worked⟩

private theorem tight_of_mem {source : List Char} {header : Slice} {rest : List Slice}
    (split : contents source = header :: rest) : ∀ content ∈ rest, Tight content.chars := by
  intro content mem
  have listed : content.chars ∈ contentTexts source := by
    rw [← map_chars_contents, split]
    exact List.mem_map.mpr ⟨content, List.mem_cons_of_mem _ mem, rfl⟩
  exact tight_of_mem_contentTexts listed

private theorem legal_of_gives {entries : List Entry} {xs : List Setting}
    (gives : List.Forall₂ Gives entries xs) (there : ∀ e ∈ entries, e.2 ≠ []) :
    ∀ e ∈ entries, Legal e := by
  intro e mem
  obtain ⟨x, -, given⟩ := exists_gives gives mem
  exact ⟨there e mem, x, given⟩

private theorem gives_of_legal {entries : List Entry} (legal : ∀ e ∈ entries, Legal e) :
    ∃ xs, List.Forall₂ Gives entries xs := by
  induction entries with
  | nil => exact ⟨[], .nil⟩
  | cons e rest ih =>
    obtain ⟨⟨-, x, given⟩, rest_legal⟩ := List.forall_mem_cons.mp legal
    obtain ⟨xs, gives⟩ := ih rest_legal
    exact ⟨x :: xs, .cons given gives⟩

/-- Lines that are all in order are blank, or a section whose entries' settings the draft lists. -/
theorem exists_section {source : List Char} {d : Draft}
    (returned : readContents {} (contents source) = .ok d) :
    (contentTexts source = [] ∧ d = {}) ∨ d.begun = true ∧ ∃ entries, IsSection source entries ∧
      List.Forall₂ Gives entries d.settings ∧ (d.settings.map Setting.param).Nodup := by
  cases split : contents source with
  | nil =>
    rw [split] at returned
    cases returned
    exact Or.inl ⟨by rw [← map_chars_contents, split, List.map_nil], rfl⟩
  | cons header rest =>
    rw [split, readContents, List.foldlM_cons] at returned
    obtain ⟨begun, added, rest_read⟩ := Except.bind_eq_ok_iff.mp returned
    obtain ⟨named, rfl⟩ := (Draft.add_header_iff rfl).mp added
    obtain ⟨entries, xs, entered, gives, there, unique, rfl⟩ :=
      (readContents_ok_iff (d := { begun := true }) rfl rest
        (tight_of_mem split) List.nodup_nil).mp rest_read
    have lines : contentTexts source = header.chars :: rest.map Slice.chars := by
      rw [← map_chars_contents, split, List.map_cons]
    refine Or.inr ⟨rfl, entries, ⟨⟨_, _, lines, named, entered⟩, legal_of_gives gives there, ?_⟩,
      gives, unique⟩
    rwa [map_fst_entries gives]

/-- Only config files are read. -/
theorem exists_entries {source : List Char} {c : Config} (returned : read source = .ok c) :
    ∃ entries, IsConfigFile source entries ∧ Describes entries c := by
  obtain ⟨d, lines_read, worked⟩ := Except.bind_eq_ok_iff.mp returned
  obtain ⟨begun, mask, rfl⟩ := Draft.config_ok_iff.mp worked
  rcases exists_section lines_read with ⟨-, rfl⟩ | ⟨-, entries, proper, gives, unique⟩
  · cases begun
  · refine ⟨entries, ⟨proper.lines, proper.legal, proper.once, ?_⟩, Draft.describes gives unique⟩
    rwa [map_fst_entries gives]

/-- Every config file is read. -/
theorem exists_config {source : List Char} {entries : List Entry}
    (file : IsConfigFile source entries) :
    ∃ c, read source = .ok c ∧ Describes entries c := by
  obtain ⟨_, _, lines, named, entered⟩ := file.lines
  rw [← map_chars_contents] at lines
  obtain ⟨header, rest, split, rfl, rfl⟩ := List.map_eq_cons_iff.mp lines
  obtain ⟨xs, gives⟩ := gives_of_legal file.legal
  have params := map_fst_entries gives
  have unique : (xs.map Setting.param).Nodup := params ▸ file.once
  have mask : Param.mask ∈ xs.map Setting.param := params ▸ file.mask
  have there (e : Entry) (mem : e ∈ entries) : e.2 ≠ [] := (file.legal e mem).1
  have rest_read : readContents { begun := true } rest = .ok { begun := true, settings := xs } :=
    (readContents_ok_iff (d := { begun := true }) rfl rest (tight_of_mem split) List.nodup_nil).mpr
      ⟨entries, xs, entered, gives, there, by simpa using unique, by simp⟩
  have worked := (Draft.config_ok_iff (d := { begun := true, settings := xs })).mpr ⟨rfl, mask, rfl⟩
  exact ⟨_, read_cons split named rest_read worked, Draft.describes gives unique⟩

/-- A text is read exactly when it is a config file. What is read has the value of every entry and
the defaults for the parameters without one, so that two files with the same entries are read alike,
whatever the order of their lines. -/
theorem read_ok_iff_grammar :
    (∀ source, (∃ c, read source = .ok c) ↔ ∃ entries, IsConfigFile source entries) ∧
    (∀ source entries c, IsConfigFile source entries →
      (read source = .ok c ↔ Describes entries c)) ∧
    (∀ a b entries others, IsConfigFile a entries → IsConfigFile b others →
      (∀ e, e ∈ entries ↔ e ∈ others) → read a = read b) := by
  refine ⟨?_, ?_, ?_⟩
  · intro source
    constructor
    · rintro ⟨c, returned⟩
      obtain ⟨entries, file, -⟩ := exists_entries returned
      exact ⟨entries, file⟩
    · rintro ⟨entries, file⟩
      obtain ⟨c, returned, -⟩ := exists_config file
      exact ⟨c, returned⟩
  · intro source entries c file
    obtain ⟨c', returned, describes⟩ := exists_config file
    constructor
    · intro also
      rw [returned] at also
      cases also
      exact describes
    · intro described
      rw [returned, describes.unique described]
  · intro a b entries others a_file b_file same
    obtain ⟨c, a_read, a_describes⟩ := exists_config a_file
    obtain ⟨c', b_read, b_describes⟩ := exists_config b_file
    rw [a_read, b_read, (a_describes.of_mem_iff same).unique b_describes]

/-- What the owner of a card says of it. -/
def cardEntries : List Entry :=
  [(.trigger, "interrupt".toList), (.mask, "0x0f88000".toList), (.gap, "300".toList)]

/-- The card, with the defaults for what its owner leaves out. -/
def cardConfig : Config := { Config.interrupt 0x0f88000 0 with gapMs := 300 }

def cardFile : List Char :=
  "[gpio_ir]\nvariant = interrupt\n\ngpio_mask = 0x0f88000 # key lines\nsoft_gap = 300".toList

def cardFileReversed : List Char :=
  "# from the end\n[ gpio_ir ]\nsoft_gap=300\ngpio_mask=0x0f88000\n variant=interrupt\n".toList

private theorem legal_cardEntries : ∀ e ∈ cardEntries, Legal e := by
  refine List.forall_mem_cons.mpr ⟨⟨by decide, .trigger .interrupt, rfl, by decide⟩, ?_⟩
  refine List.forall_mem_cons.mpr ⟨⟨by decide, .mask 0x0f88000, rfl, by decide⟩, ?_⟩
  exact List.forall_mem_singleton.mpr ⟨by decide, .gap 300, rfl, by decide⟩

private theorem isConfigFile_cardFile : IsConfigFile cardFile cardEntries := by
  constructor
  · have contents : contentTexts cardFile = ["[gpio_ir]".toList, "variant = interrupt".toList,
        "gpio_mask = 0x0f88000".toList, "soft_gap = 300".toList] := by decide +kernel
    refine ⟨_, _, contents, ⟨"gpio_ir".toList, rfl, by decide⟩, ?_⟩
    refine .cons ⟨"variant ".toList, " interrupt".toList, rfl, by decide, by decide, by decide⟩ ?_
    refine .cons ⟨"gpio_mask ".toList, " 0x0f88000".toList, rfl, by decide, by decide, by decide⟩ ?_
    exact .cons ⟨"soft_gap ".toList, " 300".toList, rfl, by decide, by decide, by decide⟩ .nil
  · exact legal_cardEntries
  · decide
  · decide

private theorem isConfigFile_cardFileReversed :
    IsConfigFile cardFileReversed cardEntries.reverse := by
  constructor
  · have contents : contentTexts cardFileReversed = ["[ gpio_ir ]".toList, "soft_gap=300".toList,
        "gpio_mask=0x0f88000".toList, "variant=interrupt".toList] := by decide +kernel
    refine ⟨_, _, contents, ⟨" gpio_ir ".toList, rfl, by decide⟩, ?_⟩
    refine .cons ⟨"soft_gap".toList, "300".toList, rfl, by decide, by decide, by decide⟩ ?_
    refine .cons ⟨"gpio_mask".toList, "0x0f88000".toList, rfl, by decide, by decide, by decide⟩ ?_
    exact .cons ⟨"variant".toList, "interrupt".toList, rfl, by decide, by decide, by decide⟩ .nil
  · exact fun e mem => legal_cardEntries e (List.mem_reverse.mp mem)
  · decide
  · decide

private theorem describes_cardConfig : Describes cardEntries cardConfig := by
  constructor
  · decide
  · intro p absent
    cases p with
    | mask | gap | trigger => exact absurd (by decide) absent
    | _ => rfl

/-- The two files are read as the same card. -/
theorem read_cardFile :
    read cardFile = .ok cardConfig ∧ read cardFileReversed = .ok cardConfig := by
  obtain ⟨-, described, same⟩ := read_ok_iff_grammar
  have file := isConfigFile_cardFile
  have reversed := isConfigFile_cardFileReversed
  have returned := (described cardFile cardEntries cardConfig file).mpr describes_cardConfig
  have alike := same cardFile cardFileReversed _ _ file reversed fun _ => List.mem_reverse.symm
  exact ⟨returned, alike ▸ returned⟩

end ConfigFile

end RemoteKeys
