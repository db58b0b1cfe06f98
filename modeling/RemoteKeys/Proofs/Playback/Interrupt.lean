import RemoteKeys.Proofs.Cards
import RemoteKeys.Proofs.Playback.Pace
import RemoteKeys.Proofs.Trace.Grammar

/-!
# Playing back an interrupt driven card

An interrupt driven card has one quiet period for all its codes. Failed reads and locked readings
leave its hold-off alone, and so does a code that is held back: the samples with a code, whatever
the codes are, make one paced list.

## Main result

`Trace.play_interrupt`: every reading is accounted for, the samples with a code are paced, and the
reports of a trace that was read from a file are a quiet period apart.
-/

namespace RemoteKeys

/-- The samples that spelled a code. -/
def coded (played : List (Nat × Outcome)) : List (Nat × Outcome) :=
  played.filter fun p => p.2.code?.isSome

private theorem reports_coded (played : List (Nat × Outcome)) :
    reports (coded played) = reports played := by
  simp only [reports, coded, List.filter_filter]
  congr 1
  apply List.filter_congr
  intro p _
  cases p.2 <;> rfl

private theorem coded_cons_of_code {p : Nat × Outcome} {code : Code}
    (spelled : p.2.code? = some code) (rest : List (Nat × Outcome)) :
    coded (p :: rest) = p :: coded rest := by
  simp [coded, spelled]

private theorem coded_cons_of_none {p : Nat × Outcome} (spelled : p.2.code? = none)
    (rest : List (Nat × Outcome)) : coded (p :: rest) = coded rest := by
  simp [coded, spelled]

/-! ### One quiet period for all codes -/

/-- What has a code from here on goes on with what had a code before, and keeps its pace. -/
theorem Setup.paced_coded (s : Setup) (h : Holdoff) (before : List (Nat × Outcome)) (t : Trace)
    (within : ∀ x ∈ t, x.timeMs ≤ Trace.timeLimitMs) (scope : h.scope = .everyCode)
    (tracks : Tracks h s.gapMs before) (quiet : before = [] → h.deadline = Instant.zero) :
    Paced s.gapMs (before ++ coded (s.playFrom h t)) := by
  induction t generalizing h before with
  | nil => simpa [Setup.playFrom, coded] using tracks.paced
  | cons x rest ih =>
    have rest_within : ∀ x ∈ rest, x.timeMs ≤ Trace.timeLimitMs :=
      fun y hy => within y (by simp [hy])
    have continued := ih h before rest_within scope tracks quiet
    rw [Setup.playFrom]
    cases reading : x.reading with
    | none =>
      -- Nothing was read, and the hold-off stays as it is.
      simp only [Setup.observe]
      rw [coded_cons_of_none rfl]
      exact continued
    | some raw =>
      cases decoded : s.decode raw with
      | none =>
        -- Nor does a locked reading disturb a hold-off that holds every code back.
        simp only [Setup.observe, decoded, Holdoff.disturb_of_everyCode scope]
        rw [coded_cons_of_none rfl]
        exact continued
      | some code =>
        -- The first code comes before any deadline was set; after it, the deadline alone decides.
        have offered := tracks.offer code (within x (by simp))
          (fun empty holds => by
            have early := holds.1
            rw [quiet empty, Instant.lt_def, Instant.ticks_zero] at early
            exact Nat.not_lt_zero _ early)
          (fun _ => by simp [Holdoff.Holds, scope])
        have scope_kept : (h.offer code (Instant.ofMillis x.timeMs)).2.scope = .everyCode :=
          ((h.step_scope_gap (.offer code (Instant.ofMillis x.timeMs))).1).trans scope
        have spelled (reported : Bool) :
            (if reported then Outcome.key code else Outcome.held code).code? = some code := by
          cases reported <;> rfl
        simp only [Setup.observe, decoded]
        rw [coded_cons_of_code (spelled _), List.append_cons]
        exact ih _ _ rest_within scope_kept offered (by simp)

/-! ### Main result -/

/--
Playing back an interrupt driven card: one outcome for each sample, at the sample's own time, as its
own reading allows; the first code is reported, and each later one is held back exactly while the
quiet period of the latest report lasts, whatever the codes are. Any two reports of a trace that was
read from a file are a quiet period apart.
-/
theorem Trace.play_interrupt (s : Setup) (interrupt : s.trigger = .interrupt) :
    (∀ t : Trace, (∀ x ∈ t, x.timeMs ≤ Trace.timeLimitMs) →
      (t.play s).map Prod.fst = t.map Sample.timeMs ∧
        List.Forall₂ (fun x p => s.Accounts x.reading p.2) t (t.play s) ∧
        Paced s.gapMs (coded (t.play s))) ∧
    ∀ (source : List Char) (t : Trace), Trace.read source = .ok t →
      (reports (t.play s)).Pairwise fun earlier later => earlier + s.gapMs ≤ later := by
  have paced (t : Trace) (within : ∀ x ∈ t, x.timeMs ≤ Trace.timeLimitMs) :
      Paced s.gapMs (coded (t.play s)) := by
    have scope : s.holdoff.scope = .everyCode := by
      simp [Setup.holdoff, Setup.holdoffScope, Holdoff.fresh, interrupt]
    have tracks : Tracks s.holdoff s.gapMs [] := ⟨.nil, rfl, by simp [reports]⟩
    rw [t.play_eq_playFrom]
    exact s.paced_coded s.holdoff [] t within scope tracks (fun _ => rfl)
  refine ⟨fun t within => ⟨t.map_fst_play s, ?_, paced t within⟩, fun source t returned => ?_⟩
  · rw [t.play_eq_playFrom]
    exact s.forall₂_playFrom s.holdoff t
  · rw [← reports_coded]
    exact (paced t (Trace.within_of_read returned)).reports_pairwise

/-- Two keys within a quiet period, among a failed read and locked readings, and the end of it. -/
theorem play_interrupt_cx88 :
    let t : Trace := [⟨0, none⟩, ⟨100, some 0x1⟩, ⟨100, some 0x8000⟩, ⟨300, some 0x88000⟩,
      ⟨450, some 0x8001⟩, ⟨499, some 0x8000⟩, ⟨500, some 0x88000⟩, ⟨900, some 0x88000⟩]
    let source :=
      "0 fail\n100 1\n100 0x8000\n300 0x88000\n450 0x8001\n499 0x8000\n500 0x88000\n900 0x88000"
    cx88.trigger = .interrupt ∧ (∀ x ∈ t, x.timeMs ≤ Trace.timeLimitMs) ∧
      coded (t.play cx88) = [(100, .key 1), (300, .held 17), (499, .held 1), (500, .key 17),
        (900, .key 17)] ∧
      Paced 400 (coded (t.play cx88)) ∧ Trace.read source.toList = .ok t ∧
      (reports (t.play cx88)).Pairwise fun earlier later => earlier + 400 ≤ later := by
  intro t source
  have read : Trace.read source.toList = .ok t := by decide +kernel
  refine ⟨by decide, by decide, by decide +kernel, ?_, read, ?_⟩
  · exact ((Trace.play_interrupt cx88 (by decide)).1 t (by decide)).2.2
  · exact (Trace.play_interrupt cx88 (by decide)).2 source.toList t read

end RemoteKeys
