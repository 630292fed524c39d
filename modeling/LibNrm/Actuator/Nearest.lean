import LibNrm.Actuation
import LibNrm.Data.Nearest
import Mathlib.Data.List.Pairwise

namespace LibNrm

namespace Actuator

/-- The loop ends on the nearest choice: the best so far is always the nearest
of the choices already seen, or none of those was close enough. -/
theorem nearest_isNearest {value : ℚ} {choices : List ℚ} {best dist : ℚ}
    (sorted : choices.Pairwise (· ≤ ·)) (near : ∃ choice ∈ choices, |value - choice| < dist) :
    Data.IsNearest choices value (nearest value choices best dist) := by
  induction choices generalizing best dist with
  | nil =>
      obtain ⟨_, member, _⟩ := near
      cases member
  | cons choice rest ih =>
      obtain ⟨first, later⟩ := List.pairwise_cons.mp sorted
      simp only [nearest]
      by_cases close : |value - choice| < dist
      · rw [if_pos close]
        by_cases closer : ∃ other ∈ rest, |value - other| < |value - choice|
        · have tail : Data.IsNearest rest value (nearest value rest choice |value - choice|) :=
            ih later closer
          obtain ⟨mem, closest, least⟩ := tail
          obtain ⟨other, listed, beats⟩ := closer
          have strictly := lt_of_le_of_lt (closest other listed) beats
          refine ⟨List.mem_cons_of_mem _ mem, ?_, ?_⟩
          · exact List.forall_mem_cons.mpr ⟨strictly.le, closest⟩
          · exact List.forall_mem_cons.mpr ⟨fun tie => absurd tie.symm strictly.ne, least⟩
        · have stays : ∀ other ∈ rest, ¬ |value - other| < |value - choice| :=
            fun other listed beats => closer ⟨other, listed, beats⟩
          rw [nearest_eq stays]
          refine ⟨List.mem_cons_self, ?_, ?_⟩
          · exact List.forall_mem_cons.mpr ⟨le_rfl, fun other listed => not_lt.mp (stays other listed)⟩
          · exact List.forall_mem_cons.mpr ⟨fun _ => le_rfl, fun other listed _ => first other listed⟩
      · rw [if_neg close]
        obtain ⟨other, member, nearby⟩ := near
        have listed : other ∈ rest := by
          rcases List.mem_cons.mp member with rfl | listed
          · exact absurd nearby close
          · exact listed
        have tail : Data.IsNearest rest value (nearest value rest best dist) :=
          ih later ⟨other, listed, nearby⟩
        obtain ⟨mem, closest, least⟩ := tail
        have strictly : |value - nearest value rest best dist| < |value - choice| :=
          lt_of_le_of_lt (closest other listed) (nearby.trans_le (not_lt.mp close))
        refine ⟨List.mem_cons_of_mem _ mem, ?_, ?_⟩
        · exact List.forall_mem_cons.mpr ⟨strictly.le, closest⟩
        · exact List.forall_mem_cons.mpr ⟨fun tie => absurd tie.symm strictly.ne, least⟩

theorem discreteCorrectedValue_isNearest {actuator : Actuator} {choices : List ℚ}
    (u : actuator.u = .choices choices) (sorted : choices.Pairwise (· ≤ ·)) (nonempty : choices ≠ [])
    {value : ℚ} (near : ∃ choice ∈ choices, |value - choice| < dblMax) :
    ∃ c, actuator.discreteCorrectedValue value = .ok (0, c) ∧ Data.IsNearest choices value c := by
  have headLeast : ∀ choice ∈ choices, choices.head nonempty ≤ choice := fun _ => sorted.rel_head
  have lastGreatest : ∀ choice ∈ choices, choice ≤ choices.getLast nonempty :=
    fun _ => sorted.rel_getLast
  simp only [discreteCorrectedValue, Actuator.choices, u, Exec.ok_bind,
    List.head?_eq_some_head nonempty, List.getLast?_eq_some_getLast nonempty]
  by_cases below : value < choices.head nonempty
  · rw [if_pos below]
    exact ⟨_, rfl, .of_below (List.head_mem nonempty) headLeast below.le⟩
  · rw [if_neg below]
    by_cases above : value > choices.getLast nonempty
    · rw [if_pos above]
      exact ⟨_, rfl, .of_above (List.getLast_mem nonempty) lastGreatest (le_of_lt above)⟩
    · rw [if_neg above]
      exact ⟨_, rfl, nearest_isNearest sorted near⟩

/-- Once choices are set, in whatever order they were given, a value closer to
them than `DBL_MAX` is corrected to the nearest one, which is valid, stays as it
is and grows with the value. -/
theorem corrected_to_nearest {actuator : Actuator} {old : List ℚ} (u : actuator.u = .choices old)
    (choices : List ℚ) (nonempty : choices ≠ []) :
    ∃ set, actuator.discreteSetChoices choices = .ok (0, set) ∧
      ∀ value, (∀ choice ∈ choices, |value - choice| < dblMax) →
        ∃ c, set.discreteCorrectedValue value = .ok (0, c) ∧ c ∈ choices ∧
          (∀ d ∈ choices, |value - c| ≤ |value - d|) ∧
          (∀ d ∈ choices, |value - d| = |value - c| → c ≤ d) ∧
          set.discreteValidateValue c = .ok 0 ∧
          set.discreteCorrectedValue c = .ok (0, c) ∧
          ∀ other corrected, value ≤ other → (∀ choice ∈ choices, |other - choice| < dblMax) →
            set.discreteCorrectedValue other = .ok (0, corrected) → c ≤ corrected := by
  have sorted := List.pairwise_insertionSort (· ≤ ·) choices
  have same : ∀ choice, choice ∈ choices ↔ choice ∈ choices.insertionSort (· ≤ ·) :=
    fun choice => (List.mem_insertionSort (· ≤ ·)).symm
  have filled : choices.insertionSort (· ≤ ·) ≠ [] := by
    intro empty
    obtain ⟨choice, member⟩ := List.exists_mem_of_ne_nil choices nonempty
    rw [same, empty] at member
    cases member
  refine ⟨{ actuator with u := .choices (choices.insertionSort (· ≤ ·)) },
    by simp [discreteSetChoices, nonempty, Actuator.choices, u], ?_⟩
  generalize stored : choices.insertionSort (· ≤ ·) = points at sorted same filled
  have corrects (value : ℚ) (near : ∃ choice ∈ points, |value - choice| < dblMax) :
      ∃ c, discreteCorrectedValue { actuator with u := .choices points } value = .ok (0, c) ∧
        Data.IsNearest points value c :=
    discreteCorrectedValue_isNearest rfl sorted filled near
  have nearby {value : ℚ} (near : ∀ choice ∈ choices, |value - choice| < dblMax) :
      ∃ choice ∈ points, |value - choice| < dblMax := by
    obtain ⟨choice, member⟩ := List.exists_mem_of_ne_nil choices nonempty
    exact ⟨choice, (same choice).mp member, near choice member⟩
  intro value near
  obtain ⟨c, corrected, isNearest⟩ := corrects value (nearby near)
  obtain ⟨again, correctedAgain, isNearestAgain⟩ :=
    corrects c ⟨c, isNearest.mem, by simpa using dblMax_pos⟩
  obtain ⟨mem, closest, least⟩ := isNearest.congr same
  refine ⟨c, corrected, mem, closest, least, ?_, ?_, ?_⟩
  · simp [discreteValidateValue, Actuator.choices, isNearest.mem]
  · rw [correctedAgain, isNearestAgain.unique (.self isNearest.mem)]
  · intro other result ordered nearOther computed
    obtain ⟨c', corrected', isNearest'⟩ := corrects other (nearby nearOther)
    rw [corrected'] at computed
    cases computed
    exact isNearest.mono ordered isNearest'

/-- Choices 9, 1 and 4 with a tie at 5 / 2: the smaller one wins. -/
theorem corrected_to_nearest_tie :
    ∃ set, (discreteCreate [97]).discreteSetChoices [9, 1, 4] = .ok (0, set) ∧
      set.discreteCorrectedValue (5 / 2) = .ok (0, 1) := by
  have discrete : (discreteCreate [97]).u = .choices [] := rfl
  obtain ⟨set, done, corrects⟩ := corrected_to_nearest discrete [9, 1, 4] (by simp)
  have near : ∀ choice ∈ [(9 : ℚ), 1, 4], |5 / 2 - choice| < dblMax := by decide +kernel
  obtain ⟨c, corrected, member, closest, least, _⟩ := corrects (5 / 2) near
  have tie : c = 1 := by
    simp only [List.mem_cons, List.not_mem_nil, or_false] at member
    rcases member with rfl | rfl | rfl
    · exact absurd (closest 1 (by simp)) (by decide +kernel)
    · rfl
    · exact absurd (least 1 (by simp) (by decide +kernel)) (by decide +kernel)
  exact ⟨set, done, tie ▸ corrected⟩

end Actuator

end LibNrm
