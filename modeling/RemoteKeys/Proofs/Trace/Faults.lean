import RemoteKeys.Proofs.Text.Parts
import RemoteKeys.Proofs.Trace.Grammar

/-!
# Where trace files are at fault

A trace file is at fault on one of its lines. What is shown is the content of the line or one of its
two words.

## Main statements

- `concerns_of_readSample`: what the fault of one line is about.
- `concerns_of_read`: every fault of a file is about one of its lines.
-/

namespace RemoteKeys.Trace

open Text

/-- The fault shows a part of the content that is trimmed and not empty. -/
def Fault.Concerns (fault : Fault) (content : Slice) : Prop :=
  fault.slice.PartOf content ∧ IsContent fault.slice.chars

private theorem concerns_of_fields? {content time reading : Slice}
    (proper : IsContent content.chars) (found : fields? content = some (time, reading)) :
    (time.PartOf content ∧ IsContent time.chars) ∧ reading.PartOf content ∧
    IsContent reading.chars := by
  have split := (exists_fields?_iff proper).mp ⟨time, reading, found, rfl, rfl⟩
  have parts : time.PartOf content ∧ reading.PartOf content := by
    unfold fields? at found
    dsimp only at found
    split at found
    · cases found
      exact Slice.partOf_of_cutWord rfl
    · cases found
  have word {w : List Char} (mem : w ∈ [time.chars, reading.chars]) : IsContent w :=
    isContent_of_mem_words (split ▸ mem)
  exact ⟨⟨parts.1, word (by simp)⟩, parts.2, word (by simp)⟩

private theorem slice_of_readTime {time : Slice} {fault : Fault}
    (failed : readTime time = .error fault) :
    fault.slice = time := by
  unfold readTime at failed
  split at failed
  · cases failed
    rfl
  · split at failed
    · cases failed
    · cases failed
      rfl

private theorem slice_of_readReading {reading : Slice} {fault : Fault}
    (failed : readReading reading = .error fault) :
    fault.slice = reading := by
  unfold readReading at failed
  split at failed
  · cases failed
  · split at failed
    · cases failed
      rfl
    · split at failed
      · cases failed
      · cases failed
        rfl

theorem concerns_of_readSample {earliest : Nat} {content : Slice} {fault : Fault}
    (proper : IsContent content.chars) (failed : readSample earliest content = .error fault) :
    fault.Concerns content := by
  unfold readSample at failed
  split at failed
  · cases failed
    exact ⟨.refl _, proper⟩
  next time reading found =>
    obtain ⟨about_time, about_reading⟩ := concerns_of_fields? proper found
    rcases Except.bind_eq_error_iff.mp failed with time_failed | ⟨timeMs, -, failed⟩
    · rw [Fault.Concerns, slice_of_readTime time_failed]
      exact about_time
    · dsimp only at failed
      split at failed
      · cases failed
        exact ⟨.refl _, proper⟩
      · rcases Except.bind_eq_error_iff.mp failed with reading_failed | ⟨reading, -, returned⟩
        · rw [Fault.Concerns, slice_of_readReading reading_failed]
          exact about_reading
        · cases returned

theorem concerns_of_readContents {earliest : Nat} {contents : List Slice} {fault : Fault}
    (proper : ∀ content ∈ contents, IsContent content.chars)
    (failed : readContents earliest contents = .error fault) :
    ∃ content ∈ contents, fault.Concerns content := by
  induction contents generalizing earliest with
  | nil => cases failed
  | cons content rest ih =>
    obtain ⟨content_proper, rest_proper⟩ := List.forall_mem_cons.mp proper
    rw [readContents] at failed
    rcases Except.bind_eq_error_iff.mp failed with here | ⟨x, -, failed⟩
    · exact ⟨content, List.mem_cons_self, concerns_of_readSample content_proper here⟩
    · rcases Except.bind_eq_error_iff.mp failed with later | ⟨samples, -, returned⟩
      · obtain ⟨content', mem, concerns⟩ := ih rest_proper later
        exact ⟨content', List.mem_cons_of_mem _ mem, concerns⟩
      · cases returned

theorem concerns_of_read {source : List Char} {fault : Fault}
    (failed : read source = .error fault) :
    ∃ content ∈ contents source, fault.Concerns content :=
  concerns_of_readContents (fun _ mem => isContent_of_mem_contents mem) failed

end RemoteKeys.Trace
