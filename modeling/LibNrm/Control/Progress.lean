import LibNrm.Control.Europar21
import LibNrm.Data.Median

namespace LibNrm

theorem NrmTime.diff_eq (start stop : NrmTime) : start.diff stop = int64 (stop.ns - start.ns) := by
  have exact : (stop.tvNsec - start.tvNsec) + 1000000000 * (stop.tvSec - start.tvSec) =
      stop.ns - start.ns := by
    unfold NrmTime.ns
    omega
  rw [NrmTime.diff, exact]

namespace Europar21

variable {R : Type} [Field R] [LinearOrder R]

omit [LinearOrder R] in
theorem progressLoop_eq (before : List (Event R)) (prevE : Event R) (rest : List (Event R))
    (diffs : List R) :
    progressLoop (before ++ rest) before.length rest.length prevE diffs =
      .ok (diffs ++ frequencies prevE rest) := by
  induction rest generalizing before prevE diffs with
  | nil => simp [progressLoop, frequencies]
  | cons e rest ih =>
      have later := ih (before ++ [e]) e (diffs ++ [e.value / (prevE.time.diff e.time * (1 / 1000000000))])
      simp only [List.append_assoc, List.cons_append, List.nil_append, List.length_append,
        List.length_cons, List.length_nil] at later
      simp only [progressLoop, List.length_cons, List.getElem?_append_right (Nat.le_refl _),
        Nat.sub_self, List.getElem?_cons_zero, deref_some, Exec.ok_bind, frequencies]
      rw [later]

omit [LinearOrder R] in
/-- The reads of the loop stay inside the vector and give the rates in order. -/
theorem progressDiffs_eq (first : Event R) (rest : List (Event R)) :
    progressDiffs (first :: rest) = .ok (frequencies first rest) := by
  have loop := progressLoop_eq [first] first rest []
  simpa [progressDiffs] using loop

omit [Field R] in
theorem sortDoubleCmp_nonpos_iff (d1 d2 : R) : sortDoubleCmp d1 d2 ≤ 0 ↔ d1 ≤ d2 := by
  unfold sortDoubleCmp
  rcases lt_trichotomy d1 d2 with less | equal | greater
  · simp [less, less.le]
  · simp [equal]
  · simp [greater, not_lt_of_gt greater, not_le_of_gt greater]

theorem events2progress_median (first : Event R) {rest : List (Event R)} (nonempty : rest ≠ []) :
    ∃ prog, events2progress (first :: rest) = .ok prog ∧
      Data.IsMedian (frequencies first rest) prog := by
  have length := frequencies_length first rest
  have positive : 0 < rest.length := List.length_pos_of_ne_nil nonempty
  simp only [events2progress, sortDoubleCmp_nonpos_iff, List.length_cons, Nat.add_sub_cancel]
  have ordered := List.pairwise_insertionSort (· ≤ ·) (frequencies first rest)
  have arranged := List.perm_insertionSort (· ≤ ·) (frequencies first rest)
  generalize (frequencies first rest).insertionSort (· ≤ ·) = sorted at ordered arranged ⊢
  have sortedLength : sorted.length = rest.length := by rw [arranged.length_eq, length]
  rw [← sortedLength] at positive ⊢
  have upper : sorted.length / 2 < sorted.length := by omega
  have lower : sorted.length / 2 - 1 < sorted.length := by omega
  have readUpper := List.getElem?_eq_getElem upper
  have readLower := List.getElem?_eq_getElem lower
  rw [readUpper, readLower]
  by_cases odd : sorted.length % 2 = 1
  · rw [if_pos odd]
    exact ⟨_, rfl, (Data.isMedian_of_odd ordered odd readUpper).perm arranged⟩
  · rw [if_neg odd]
    have even : sorted.length % 2 = 0 := by omega
    exact ⟨_, rfl, (Data.isMedian_of_even ordered even positive readLower readUpper).perm arranged⟩

def Increasing (events : List (Event R)) : Prop :=
  events.IsChain fun prevE e =>
    prevE.time.ns < e.time.ns ∧ e.time.ns - prevE.time.ns < 2 ^ 63

omit [LinearOrder R] in
theorem frequencies_eq_rates {first : Event R} {rest : List (Event R)}
    (increasing : Increasing (first :: rest)) : frequencies first rest = rates (first :: rest) := by
  induction rest generalizing first with
  | nil => rfl
  | cons e rest ih =>
      obtain ⟨⟨grows, fits⟩, later⟩ := List.isChain_cons_cons.mp increasing
      have exact : first.time.diff e.time = e.time.ns - first.time.ns := by
        rw [NrmTime.diff_eq]
        exact int64_of_fits (by omega) fits
      simp only [frequencies, exact]
      rw [ih later]
      rfl

/-- From two events with increasing times on, the progress is the median of the
rates between them, so it depends only on which rates there are. -/
theorem events2progress_isMedian (events : List (Event R)) (several : 2 ≤ events.length)
    (increasing : Increasing events) :
    progressDiffs events = .ok (rates events) ∧
    (rates events).length = events.length - 1 ∧
    ∃ prog, events2progress events = .ok prog ∧ Data.IsMedian (rates events) prog ∧
      ∀ other : List (Event R), 2 ≤ other.length → Increasing other →
        (rates other).Perm (rates events) → events2progress other = .ok prog := by
  have median (events : List (Event R)) (several : 2 ≤ events.length)
      (increasing : Increasing events) : progressDiffs events = .ok (rates events) ∧
        ∃ prog, events2progress events = .ok prog ∧ Data.IsMedian (rates events) prog := by
    cases events with
    | nil => simp at several
    | cons first rest =>
        have nonempty : rest ≠ [] := by
          rintro rfl
          simp at several
        rw [progressDiffs_eq, ← frequencies_eq_rates increasing]
        exact ⟨rfl, events2progress_median first nonempty⟩
  obtain ⟨loop, prog, computed, isMedian⟩ := median events several increasing
  refine ⟨loop, by simp [rates], prog, computed, isMedian, ?_⟩
  intro other severalOther increasingOther same
  obtain ⟨_, progOther, computedOther, isMedianOther⟩ := median other severalOther increasingOther
  rw [computedOther, isMedianOther.unique (isMedian.perm same.symm)]

def sampleRates : List (Event ℚ) := [⟨⟨0, 0⟩, 1⟩, ⟨⟨1, 0⟩, 5⟩, ⟨⟨3, 0⟩, 6⟩]

theorem sampleRates_progress :
    ∃ prog, events2progress sampleRates = .ok prog ∧ Data.IsMedian (rates sampleRates) prog := by
  have increasing : Increasing sampleRates := by
    unfold Increasing sampleRates
    decide
  obtain ⟨_, _, prog, computed, isMedian, _⟩ :=
    events2progress_isMedian sampleRates (by decide) increasing
  exact ⟨prog, computed, isMedian⟩

/-- The first and the last time an `int64_t` of nanoseconds can name. -/
def sampleSpan : List (Event ℚ) := [⟨.fromns (-(2 ^ 63)), 0⟩, ⟨.fromns (2 ^ 63 - 1), 1⟩]

/-- Their difference fits in no `int64_t`; it comes out as one nanosecond backwards. -/
theorem sampleSpan_progress :
    (sampleSpan.IsChain fun prevE e => prevE.time.ns < e.time.ns) ∧ 2 ≤ sampleSpan.length ∧
    events2progress sampleSpan = .ok (-1000000000) ∧
    rates sampleSpan = [1000000000 / 18446744073709551615] ∧
    ¬ ∃ prog, events2progress sampleSpan = .ok prog ∧ Data.IsMedian (rates sampleSpan) prog := by
  have computed : events2progress sampleSpan = .ok (-1000000000) := by decide +kernel
  have exact : rates sampleSpan = [1000000000 / 18446744073709551615] := by decide +kernel
  refine ⟨by unfold sampleSpan; decide, by decide, computed, exact, ?_⟩
  rintro ⟨prog, progress, isMedian⟩
  rw [computed] at progress
  cases progress
  rw [exact] at isMedian
  have only : Data.IsMedian [(1000000000 / 18446744073709551615 : ℚ)]
      (1000000000 / 18446744073709551615) :=
    .odd (List.Perm.refl ([] ++ _ :: [])) (List.pairwise_singleton _ _) rfl
  have equal := isMedian.unique only
  norm_num at equal

end Europar21

end LibNrm
