import RemoteKeys.Proofs.ConfigFile.Grammar
import RemoteKeys.Proofs.Text.Parts

/-!
# Where config files are at fault

A line's fault is about a trimmed part of its content, which is empty only where an assignment has
no name. Faults without a part of the file to show are left for files whose lines are all in order.

## Main statements

- `Draft.concerns_of_add`: what the fault of one line is about.
- `concerns_or_lacksPart`: every fault of a file is the fault of a line, or of a file in order that
  lacks the section or the mask.
-/

namespace RemoteKeys.ConfigFile

open Text

/-- The fault shows a trimmed part of the content. It is empty only where it is the name that is
missing in front of an equals sign. -/
def Fault.Concerns (fault : Fault) (content : Slice) : Prop :=
  ∃ s, fault.slice? = some s ∧ s.PartOf content ∧ trim s.chars = s.chars ∧
    (s.chars = [] → fault = .unknownParam s ∧ (⟨s.start, ['=']⟩ : Slice).PartOf content)

private theorem Fault.Concerns.of_slice {fault : Fault} {s content : Slice}
    (shown : fault.slice? = some s) (part : s.PartOf content) (proper : IsContent s.chars) :
    fault.Concerns content :=
  ⟨s, shown, part, proper.1, fun empty => absurd empty proper.2⟩

/-- All lines are in order, but there is no section, or no mask in it. -/
def Fault.LacksPart (fault : Fault) (source : List Char) : Prop :=
  (contentTexts source = [] ∧ fault = .missingSection) ∨
    ∃ entries, IsSection source entries ∧ Param.mask ∉ entries.map Prod.fst ∧ fault = .missingMask

/-! ### One line -/

/-- The whole line of a statement. -/
def Statement.line : Statement → Slice
  | header line _ | openHeader line | assignment line _ _ | other line => line

private theorem line_ofContent (content : Slice) :
    (Statement.ofContent content).line = content := by
  unfold Statement.ofContent
  split
  · split <;> rfl
  · split <;> rfl

private theorem exists_cut_of_ofContent {content line name value : Slice}
    (made : Statement.ofContent content = .assignment line name value) :
    ∃ before after, content.cut? '=' = some (before, after) ∧ name = before.trimEnd ∧
      value = after.trimStart := by
  unfold Statement.ofContent at made
  split at made
  · split at made <;> cases made
  · split at made
    next before after cut =>
      cases made
      exact ⟨before, after, cut, rfl, rfl⟩
    · cases made

private theorem slice?_of_readSetting {p : Param} {value : Slice} {fault : Fault}
    (failed : readSetting p value = .error fault) : fault.slice? = some value := by
  have number {most : Nat} (failed : readNumber most value = .error fault) : fault.slice? =
      some value := by
    unfold readNumber at failed
    split at failed
    · cases failed
      rfl
    · split at failed
      · cases failed
      · cases failed
        rfl
  cases p with
  | trigger =>
    simp only [readSetting] at failed
    split at failed
    · cases failed
    · cases failed
      rfl
  | mask | lockMask | invertMask =>
    simp only [readSetting, readLines, Except.map_eq_error_iff] at failed
    exact number failed
  | _ =>
    simp only [readSetting, Except.map_eq_error_iff] at failed
    exact number failed

/-- Neither side of an assignment has blanks around it, and where the name is empty, the equals sign
stands in its place. -/
theorem sides_of_assignment {content line name value : Slice} (proper : IsContent content.chars)
    (made : Statement.ofContent content = .assignment line name value) :
    (name.PartOf content ∧ trim name.chars = name.chars ∧
        (name.chars = [] → (⟨name.start, ['=']⟩ : Slice).PartOf content)) ∧
      value.PartOf content ∧ trim value.chars = value.chars := by
  obtain ⟨before, after, cut, rfl, rfl⟩ := exists_cut_of_ofContent made
  obtain ⟨before_part, after_part⟩ := Slice.partOf_of_cut? cut
  obtain ⟨split, -⟩ := Slice.chars_of_cut? cut
  obtain ⟨flush, tight⟩ := trim_eq_self_iff.mp proper.1
  rw [split] at flush tight
  refine ⟨⟨(before.trimEnd_partOf).trans before_part, ?_, ?_⟩,
    (after.trimStart_partOf).trans after_part, ?_⟩
  · obtain ⟨blanks, whole⟩ : trimEnd before.chars <+: before.chars := List.rdropWhile_prefix ..
    have name_flush : Flush (trimEnd before.chars) := by
      have before_flush := flush.of_append
      rw [← whole] at before_flush
      exact before_flush.of_append
    exact trim_eq_self_iff.mpr ⟨name_flush, tight_trimEnd _⟩
  · intro empty
    -- The line starts with no blank, so that nothing at all is in front of the sign.
    have nothing : before.chars = [] := flush.of_append.eq_nil (List.rdropWhile_eq_nil_iff.mp empty)
    have start : before.start = content.start := Slice.start_of_cut? cut
    exact ⟨[], after.chars, by rw [split, nothing]; rfl, start⟩
  · have after_tight : Tight after.trimStart.chars := by
      have whole := after.takeWhile_append_dropWhile isBlank
      rw [List.append_cons, ← whole] at tight
      exact tight.of_append.of_append
    exact trim_eq_self_iff.mpr ⟨flush_dropWhile _, after_tight⟩

private theorem Draft.concerns_of_assign {d : Draft} {content line name value : Slice}
    {fault : Fault} (proper : IsContent content.chars)
    (made : Statement.ofContent content = .assignment line name value)
    (failed : d.assign line name value = .error fault) : fault.Concerns content := by
  obtain ⟨⟨name_part, name_trimmed, unnamed⟩, value_part, value_trimmed⟩ :=
    sides_of_assignment proper made
  have whole : line = content := by rw [← line_ofContent content, made]; rfl
  unfold assign at failed
  split at failed
  · cases failed
    exact ⟨name, rfl, name_part, name_trimmed, fun empty => ⟨rfl, unnamed empty⟩⟩
  next p found =>
    split at failed
    · cases failed
      -- No parameter has an empty name.
      have named : name.chars ≠ [] := by
        rw [← Param.name_of_ofName? found]
        cases p <;> decide
      exact .of_slice rfl name_part ⟨name_trimmed, named⟩
    · split at failed
      · cases failed
        exact .of_slice rfl (whole ▸ .refl _) (whole ▸ proper)
      next there =>
        have shown := slice?_of_readSetting (Except.map_eq_error_iff.mp failed)
        exact .of_slice shown value_part ⟨value_trimmed, there⟩

theorem Draft.concerns_of_add {d : Draft} {content : Slice} {fault : Fault}
    (proper : IsContent content.chars)
    (failed : d.add (Statement.ofContent content) = .error fault) : fault.Concerns content := by
  have whole := line_ofContent content
  have about_line (shown : fault.slice? = some content) : fault.Concerns content :=
    .of_slice shown (.refl _) proper
  cases made : Statement.ofContent content with
  | header line name =>
    rw [made] at failed whole
    cases whole
    simp only [add] at failed
    split at failed
    · cases failed
      exact about_line rfl
    · split at failed
      · cases failed
        exact about_line rfl
      · cases failed
  | openHeader line =>
    rw [made] at failed whole
    cases whole
    cases failed
    exact about_line rfl
  | assignment line name value =>
    rw [made, add] at failed
    split at failed
    · exact concerns_of_assign proper made failed
    · rw [made] at whole
      cases whole
      cases failed
      exact about_line rfl
  | other line =>
    rw [made] at failed whole
    cases whole
    simp only [add, Except.error.injEq] at failed
    split at failed <;> (cases failed; exact about_line rfl)

/-! ### Whole files -/

theorem concerns_of_readContents {d : Draft} {contents : List Slice} {fault : Fault}
    (proper : ∀ content ∈ contents, IsContent content.chars)
    (failed : readContents d contents = .error fault) :
    ∃ content ∈ contents, fault.Concerns content := by
  -- Over the contents, from any draft: what was said before decides whether a line is at fault, and
  -- never where.
  induction contents generalizing d with
  | nil => cases failed
  | cons content rest ih =>
    obtain ⟨content_proper, rest_proper⟩ := List.forall_mem_cons.mp proper
    rw [readContents, List.foldlM_cons, Except.bind_eq_error_iff] at failed
    rcases failed with here | ⟨next, -, later⟩
    · exact ⟨content, List.mem_cons_self, Draft.concerns_of_add content_proper here⟩
    · obtain ⟨content', mem, concerns⟩ := ih rest_proper later
      exact ⟨content', List.mem_cons_of_mem _ mem, concerns⟩

theorem lacksPart_of_config {source : List Char} {d : Draft} {fault : Fault}
    (lines_read : readContents {} (contents source) = .ok d) (failed : d.config = .error fault) :
    fault.LacksPart source := by
  unfold Draft.config at failed
  rcases exists_section lines_read with ⟨blank, rfl⟩ | ⟨begun, entries, proper, gives, -⟩
  · cases failed
    exact Or.inl ⟨blank, rfl⟩
  · rw [if_neg (by simp [begun])] at failed
    split at failed
    next unset =>
      cases failed
      refine Or.inr ⟨entries, proper, ?_, rfl⟩
      rwa [map_fst_entries gives]
    · cases failed

end RemoteKeys.ConfigFile
