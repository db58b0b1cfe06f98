import RemoteKeys.Proofs.Diagnostic.FirstFault
import RemoteKeys.Proofs.Text.Place

/-!
# Files cut at a line

What is read of a line is decided by the line and by what the lines above it say. Where those are in
order, a file is read by reading the line's content next, and then the contents below it.

## Main statements

- `LineAt.exists_contentsFrom`: the content of the line comes first among those from there on.
- `ConfigFile.exists_readContents_at`, `Trace.exists_read_at`: reading a file whose lines above the
  line are in order.
-/

namespace RemoteKeys

open Text

variable {source above line below : List Char} {offset : Nat}

namespace Text

/-- What is written on a line up to its comment, without the blanks around it. -/
def contentText (line : List Char) : List Char := trim (line.takeWhile (· ≠ '#'))

private theorem LineAt.contentTexts_eq (cut : LineAt source offset above line below)
    (there : contentText line ≠ []) :
    contentTexts (line ++ below) = contentText line :: contentTexts below := by
  have alone : line.splitOn '\n' = [line] := List.splitOn_eq_singleton cut.inner
  have texts (ls : List (List Char)) : ((line :: ls).map contentText).filter (· ≠ []) =
      contentText line :: (ls.map contentText).filter (· ≠ []) := by
    rw [List.map_cons, List.filter_cons_of_pos (by simpa using there)]
  rcases cut.ended with rfl | feed
  · rw [List.append_nil]
    exact (congrArg (fun ls => (ls.map contentText).filter (· ≠ [])) alone).trans (texts [])
  · obtain ⟨rest, rfl⟩ := List.head?_eq_some_iff.mp feed
    -- The line feed ends the line; what is in front of it below is one more line with nothing on
    -- it.
    have split : (line ++ '\n' :: rest).splitOn '\n' = line :: rest.splitOn '\n' := by
      rw [List.splitOn_append_cons_self, alone, List.singleton_append]
    have split_below : ('\n' :: rest).splitOn '\n' = [] :: rest.splitOn '\n' := by
      rw [List.splitOn_cons_eq_if_modifyHead, if_pos (beq_self_eq_true _)]
    calc contentTexts (line ++ '\n' :: rest)
      _ = ((line :: rest.splitOn '\n').map contentText).filter (· ≠ []) := by
        rw [contentTexts, split]; rfl
      _ = contentText line :: contentTexts ('\n' :: rest) := by
        rw [texts, contentTexts, split_below]; rfl

/-- The line's content comes first among those from the line on. -/
theorem LineAt.exists_contentsFrom (cut : LineAt source offset above line below)
    (there : contentText line ≠ []) :
    ∃ others, contentsFrom (byteLength above) (line ++ below) =
      (⟨byteLength above, line⟩ : Slice).content :: others ∧
      others.map Slice.chars = contentTexts below := by
  obtain ⟨others, split, -⟩ := cut.splitOn_eq
  have first : contentsFrom (byteLength above) (line ++ below) =
    (⟨byteLength above, line⟩ : Slice).content ::
      ((linesFrom (byteLength above + byteLength line + 1) others).map Slice.content).filter
        fun content => ¬ content.IsEmpty := by
    have shown : ¬ (⟨byteLength above, line⟩ : Slice).content.IsEmpty := there
    rw [contentsFrom, split, linesFrom, List.map_cons,
      List.filter_cons_of_pos (by simpa using shown)]
  refine ⟨_, first, ?_⟩
  have texts := map_chars_contentsFrom (byteLength above) (line ++ below)
  rw [first, List.map_cons, cut.contentTexts_eq there] at texts
  exact List.tail_eq_of_cons_eq texts

/-- The text that ends with the line is cut there too. -/
theorem LineAt.ending (cut : LineAt source offset above line below) :
    LineAt (above ++ line) (byteLength above) above line [] where
  split := (List.append_nil _).symm
  whole := cut.whole
  inner := cut.inner
  ended := .inl rfl
  reached := Nat.le_refl _
  here := .inl rfl

end Text

namespace ConfigFile

private theorem exists_readContents_at {d : Draft} (cut : LineAt source offset above line below)
    (there : contentText line ≠ []) (in_order : readContents {} (contents above) = .ok d) :
    ∃ others, others.map Slice.chars = contentTexts below ∧
      readContents {} (contents source) = (do
        let next ← d.add (Statement.ofContent (⟨byteLength above, line⟩ : Slice).content)
        readContents next others) := by
  obtain ⟨others, first, texts⟩ := cut.exists_contentsFrom there
  refine ⟨others, texts, ?_⟩
  rw [cut.split, List.append_assoc, readContents_contents_append cut.whole, in_order, first]
  rfl

/-- A file is at fault where a line is, behind lines that are in order. -/
theorem read_of_add_error {d : Draft} {fault : Fault} (cut : LineAt source offset above line below)
    (there : contentText line ≠ []) (in_order : readContents {} (contents above) = .ok d)
    (failed : d.add (Statement.ofContent (⟨byteLength above, line⟩ : Slice).content) =
      .error fault) :
    read source = .error fault := by
  obtain ⟨others, -, read_next⟩ := exists_readContents_at cut there in_order
  rw [read, read_next, failed]
  rfl

/-- What is said up to a line is what the lines above it say and what it adds. -/
theorem readContents_ending {d : Draft} (cut : LineAt source offset above line below)
    (there : contentText line ≠ []) (in_order : readContents {} (contents above) = .ok d) :
    readContents {} (contents (above ++ line)) =
      d.add (Statement.ofContent (⟨byteLength above, line⟩ : Slice).content) := by
  obtain ⟨others, texts, read_next⟩ := exists_readContents_at cut.ending there in_order
  have nothing : others = [] := List.map_eq_nil_iff.mp texts
  rw [read_next, nothing]
  exact bind_pure _

end ConfigFile

namespace Trace

theorem exists_read_at {t : Trace} (cut : LineAt source offset above line below)
    (there : contentText line ≠ []) (in_order : read above = .ok t) :
    ∃ others, others.map Slice.chars = contentTexts below ∧
      read source = (do
        let x ← readSample (reached 0 t) (⟨byteLength above, line⟩ : Slice).content
        let later ← readContents x.timeMs others
        return t ++ x :: later) := by
  obtain ⟨others, first, texts⟩ := cut.exists_contentsFrom there
  refine ⟨others, texts, ?_⟩
  rw [cut.split, List.append_assoc, read_append cut.whole, in_order, first]
  change (readContents (reached 0 t) (_ :: others) >>= fun later => .ok (t ++ later)) = _
  rw [readContents, bind_assoc]
  congr 1
  funext x
  rw [bind_assoc]
  rfl

end Trace

end RemoteKeys
