import Mathlib.Data.List.SplitBy
import RemoteKeys.Proofs.Cards
import RemoteKeys.Proofs.Playback.Pace

/-!
# Playing back a polled card

The hold-off of a polled card knows nothing of runs: it holds a code and a deadline. The proof
carries the run that is going on beside it. While a run lasts, the hold-off remembers the code of
the run, whether that was last reported or held back, and tracks the run's reports; a locked reading
or another code closes the run, and a failed read does neither.

## Main result

`Trace.play_polled`: every reading is accounted for, and every run is paced.
-/

namespace RemoteKeys

/-- The outcomes carry one and the same code. -/
def Outcome.SameCode (a b : Outcome) : Prop := a.code? ≠ none ∧ a.code? = b.code?

instance (a b : Outcome) : Decidable (a.SameCode b) := inferInstanceAs (Decidable (_ ∧ _))

/--
The longest stretches of samples with one code. Failed reads are left out before; a locked reading
belongs to no run, and ends one.
-/
def runs (played : List (Nat × Outcome)) : List (List (Nat × Outcome)) :=
  ((played.filter fun p => p.2 ≠ .unread).splitBy fun a b => a.2.SameCode b.2).filter fun run =>
    run.all fun p => p.2 ≠ .locked

/-! ### Cutting into runs -/

private theorem runs_append_unread (a b : List (Nat × Outcome)) (timeMs : Nat) :
    runs (a ++ (timeMs, .unread) :: b) = runs (a ++ b) := by
  simp [runs]

private theorem eq_of_mem_runs {run r : List (Nat × Outcome)} {code : Code}
    (uniform : ∀ p ∈ run, p.2.code? = some code) (mem : r ∈ runs run) : r = run := by
  have kept : (run.filter fun p => p.2 ≠ .unread) = run := by
    apply List.filter_eq_self.mpr
    intro p member
    have coded := uniform p member
    cases outcome : p.2 <;> simp_all [Outcome.code?]
  have chain : run.IsChain fun a b => decide (a.2.SameCode b.2) = true := by
    apply List.Pairwise.isChain
    apply List.pairwise_of_forall_mem_list
    intro a ha b hb
    simp [Outcome.SameCode, uniform a ha, uniform b hb]
  by_cases empty : run = []
  · subst empty
    simp [runs] at mem
  · rw [runs, kept, List.splitBy_of_isChain empty chain] at mem
    exact List.mem_singleton.mp (List.mem_filter.mp mem).1

/-- A sample that does not go on with what was before it starts anew. -/
theorem mem_runs_append {a b r : List (Nat × Outcome)} {p : Nat × Outcome} (read : p.2 ≠ .unread)
    (other : ∀ q ∈ a, ¬ q.2.SameCode p.2) (mem : r ∈ runs (a ++ p :: b)) :
    r ∈ runs a ∨ r ∈ runs (p :: b) := by
  have kept : ((p :: b).filter fun p => p.2 ≠ .unread) = p :: b.filter fun p => p.2 ≠ .unread := by
    simp [read]
  have ends : ∀ q ∈ (a.filter fun p => p.2 ≠ .unread).getLast?,
      decide (q.2.SameCode p.2) = false := by
    intro q last
    have member := (List.mem_filter.mp (List.mem_of_getLast? last)).1
    simpa using other q member
  simp only [runs] at mem ⊢
  rw [List.filter_append, kept, List.splitBy_append_cons _ ends, List.filter_append] at mem
  rw [kept]
  exact List.mem_append.mp mem

private theorem mem_runs_locked {b r : List (Nat × Outcome)} {timeMs : Nat}
    (mem : r ∈ runs ((timeMs, .locked) :: b)) : r ∈ runs b := by
  have alone : ([(timeMs, Outcome.locked)] ++ b.filter fun p => p.2 ≠ .unread).splitBy
      (fun a b => a.2.SameCode b.2) = [[(timeMs, .locked)]] ++
        (b.filter fun p => p.2 ≠ .unread).splitBy fun a b => a.2.SameCode b.2 := by
    apply List.splitBy_append
    intro p last q _
    obtain rfl : (timeMs, Outcome.locked) = p := by simpa using last
    simp [Outcome.SameCode, Outcome.code?]
  have kept : (((timeMs, Outcome.locked) :: b).filter fun p => p.2 ≠ .unread) =
      [(timeMs, .locked)] ++ b.filter fun p => p.2 ≠ .unread := by simp
  simp only [runs] at mem ⊢
  rw [kept, alone, List.filter_append] at mem
  simpa using mem

/-! ### The run that is going on -/

/-- The hold-off of a polled card tracks the run that is going on, and remembers its code. -/
structure InRun (h : Holdoff) (gapMs : Nat) (run : List (Nat × Outcome)) : Prop where
  scope : h.scope = .sameCode
  tracks : Tracks h gapMs run
  code : ∀ p ∈ run, p.2.code? = h.last
  none_iff : h.last = none ↔ run = []

private theorem InRun.start {h : Holdoff} {gapMs : Nat} (scope : h.scope = .sameCode)
    (gap : h.gap = gapMs * ticksPerMilli) (forgotten : h.last = none) : InRun h gapMs [] :=
  ⟨scope, ⟨.nil, gap, by simp [reports]⟩, by simp, by simp [forgotten]⟩

private theorem InRun.disturb {h : Holdoff} {gapMs : Nat} {run : List (Nat × Outcome)}
    (inRun : InRun h gapMs run) : InRun h.disturb gapMs [] := by
  rw [Holdoff.disturb_of_sameCode inRun.scope]
  exact .start inRun.scope inRun.tracks.gap rfl

/-- A code that is offered goes on with the run of that code, or begins one. -/
theorem InRun.offer {h : Holdoff} {gapMs timeMs : Nat} {run : List (Nat × Outcome)} {code : Code}
    (scope : h.scope = .sameCode) (tracks : Tracks h gapMs run)
    (within : timeMs ≤ Trace.timeLimitMs) (uniform : ∀ p ∈ run, p.2.code? = some code)
    (goes_on : run ≠ [] ↔ h.last = some code) :
    InRun (h.offer code (Instant.ofMillis timeMs)).2 gapMs
      (run ++ [(timeMs, if (h.offer code (Instant.ofMillis timeMs)).1 then .key code
        else .held code)]) := by
  have kept := tracks.offer code within
    (fun empty holds => goes_on.mpr (by simpa [Holdoff.Holds, scope] using holds.2) empty)
    (fun nonempty => by simp [Holdoff.Holds, scope, goes_on.mp nonempty])
  -- A held code is the one that is remembered already, a reported one is remembered from now on.
  have remembered : (h.offer code (Instant.ofMillis timeMs)).2.last = some code := by
    by_cases holds : h.Holds code (Instant.ofMillis timeMs)
    · rw [Holdoff.offer_of_holds holds]
      simpa [Holdoff.Holds, scope] using holds.2
    · rw [Holdoff.offer_of_not_holds holds, Holdoff.report]
  have scope_kept : (h.offer code (Instant.ofMillis timeMs)).2.scope = .sameCode :=
    ((h.step_scope_gap (.offer code (Instant.ofMillis timeMs))).1).trans scope
  refine ⟨scope_kept, kept, ?_, by simp [remembered]⟩
  intro p member
  rw [remembered]
  rcases List.mem_append.mp member with old | new
  · exact uniform p old
  · rw [List.mem_singleton.mp new]
    split <;> rfl

/-- A code that is not the one remembered begins a run, whatever the deadline. -/
private theorem InRun.begin {h : Holdoff} {gapMs timeMs : Nat} {run : List (Nat × Outcome)}
    {code : Code} (inRun : InRun h gapMs run) (within : timeMs ≤ Trace.timeLimitMs)
    (other : h.last ≠ some code) :
    InRun (h.offer code (Instant.ofMillis timeMs)).2 gapMs
      [(timeMs, if (h.offer code (Instant.ofMillis timeMs)).1 then .key code else .held code)] := by
  have empty : Tracks h gapMs [] := ⟨.nil, inRun.tracks.gap, by simp [reports]⟩
  exact .offer inRun.scope empty within (by simp) (by simp [other])

/-- A run that is closed was tracked to its end. -/
private theorem InRun.paced_of_mem_runs {h : Holdoff} {gapMs : Nat} {run r : List (Nat × Outcome)}
    (inRun : InRun h gapMs run) (mem : r ∈ runs run) : Paced gapMs r := by
  cases last : h.last with
  | none =>
    obtain rfl := inRun.none_iff.mp last
    simp [runs] at mem
  | some code =>
    rw [eq_of_mem_runs (fun p member => (inRun.code p member).trans last) mem]
    exact inRun.tracks.paced

/-- Whatever run is going on, every run of what is played from here on is paced. -/
theorem Setup.paced_of_mem_runs (s : Setup) (h : Holdoff) (run : List (Nat × Outcome)) (t : Trace)
    (within : ∀ x ∈ t, x.timeMs ≤ Trace.timeLimitMs) (inRun : InRun h s.gapMs run)
    (r : List (Nat × Outcome)) (mem : r ∈ runs (run ++ s.playFrom h t)) : Paced s.gapMs r := by
  induction t generalizing h run with
  | nil =>
    rw [Setup.playFrom, List.append_nil] at mem
    exact inRun.paced_of_mem_runs mem
  | cons x rest ih =>
    have now_within := within x (by simp)
    have rest_within : ∀ x ∈ rest, x.timeMs ≤ Trace.timeLimitMs :=
      fun y hy => within y (by simp [hy])
    rw [Setup.playFrom] at mem
    cases reading : x.reading with
    | none =>
      -- A failed read is in no run, and the hold-off does not see it.
      simp only [reading, Setup.observe, runs_append_unread] at mem
      exact ih h run rest_within inRun mem
    | some raw =>
      cases decoded : s.decode raw with
      | none =>
        -- A locked reading closes the run, and the hold-off forgets its code.
        simp only [reading, Setup.observe, decoded] at mem
        rcases mem_runs_append (by simp) (by simp [Outcome.SameCode, Outcome.code?]) mem
          with old | new
        · exact inRun.paced_of_mem_runs old
        · exact ih _ [] rest_within inRun.disturb (mem_runs_locked new)
      | some code =>
        simp only [reading, Setup.observe, decoded] at mem
        by_cases same : h.last = some code
        · -- The code of the run: reported or held back, the run goes on.
          rw [List.append_cons] at mem
          refine ih _ _ rest_within (.offer inRun.scope inRun.tracks now_within ?_ ?_) mem
          · intro p member
            rw [inRun.code p member, same]
          · rw [ne_eq, ← inRun.none_iff]
            simp [same]
        · -- Another code closes the run and begins one.
          have other : ∀ p ∈ run, ¬ p.2.SameCode
              (if (h.offer code (Instant.ofMillis x.timeMs)).1 then .key code else .held code) := by
            intro p member going
            apply same
            rw [← inRun.code p member]
            exact going.2.trans (by split <;> rfl)
          rcases mem_runs_append (by split <;> simp) other mem with old | new
          · exact inRun.paced_of_mem_runs old
          · exact ih _ _ rest_within (inRun.begin now_within same) new

/-! ### Main result -/

/--
Playing back a polled card: one outcome for each sample, at the sample's own time, as its own
reading allows; and in every run the first code is reported, and each later one is held back exactly
while the quiet period of the run's latest report lasts.
-/
theorem Trace.play_polled (s : Setup) (polled : s.trigger = .polled) (t : Trace)
    (within : ∀ x ∈ t, x.timeMs ≤ Trace.timeLimitMs) :
    (t.play s).map Prod.fst = t.map Sample.timeMs ∧
      List.Forall₂ (fun x p => s.Accounts x.reading p.2) t (t.play s) ∧
      ∀ run ∈ runs (t.play s), Paced s.gapMs run := by
  refine ⟨t.map_fst_play s, ?_, ?_⟩
  · rw [t.play_eq_playFrom]
    exact s.forall₂_playFrom s.holdoff t
  · intro run mem
    have start : InRun s.holdoff s.gapMs [] :=
      .start (by simp [Setup.holdoff, Setup.holdoffScope, Holdoff.fresh, polled]) rfl rfl
    rw [t.play_eq_playFrom] at mem
    exact s.paced_of_mem_runs s.holdoff [] t within start run mem

/-- A key held over a locked reading and a failed read, and let go for another one. -/
theorem play_polled_bt848 :
    let t : Trace := [⟨1000, some 0x1500⟩, ⟨1083, some 0x1500⟩, ⟨1166, some 0x9500⟩,
      ⟨1249, some 0x1500⟩, ⟨1332, none⟩, ⟨1415, some 0x1500⟩, ⟨1749, some 0x1500⟩,
      ⟨1832, some 0x1600⟩, ⟨18446744073709, some 0x1600⟩]
    bt848.trigger = .polled ∧ (∀ x ∈ t, x.timeMs ≤ Trace.timeLimitMs) ∧
      runs (t.play bt848) =
        [[(1000, .key 21), (1083, .held 21)], [(1249, .key 21), (1415, .held 21), (1749, .key 21)],
          [(1832, .key 22), (18446744073709, .key 22)]] ∧
      ∀ run ∈ runs (t.play bt848), Paced 500 run := by
  refine ⟨by decide, by decide, by decide, ?_⟩
  exact (Trace.play_polled bt848 (by decide) _ (by decide)).2.2

end RemoteKeys
