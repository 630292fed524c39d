import Mathlib.Algebra.Order.Field.Basic
import Mathlib.Data.List.Sort

namespace LibNrm.Data

variable {R : Type} [Field R] [LinearOrder R]

/-- `median` is the statistical median of `values`, whose order does not matter. -/
inductive IsMedian (values : List R) : R → Prop
  | odd {below above : List R} {middle : R} :
      (below ++ middle :: above).Perm values → (below ++ middle :: above).Pairwise (· ≤ ·) →
      below.length = above.length → IsMedian values middle
  | even {below above : List R} {low high : R} :
      (below ++ low :: high :: above).Perm values →
      (below ++ low :: high :: above).Pairwise (· ≤ ·) →
      below.length = above.length → IsMedian values ((low + high) / 2)

theorem IsMedian.perm {values other : List R} {median : R} (isMedian : IsMedian values median)
    (same : values.Perm other) : IsMedian other median := by
  cases isMedian with
  | odd arranged sorted halves => exact .odd (arranged.trans same) sorted halves
  | even arranged sorted halves => exact .even (arranged.trans same) sorted halves

/-- A collection has at most one median: there is one sorted arrangement, and
one place to cut it. -/
theorem IsMedian.unique {values : List R} {first second : R} (isFirst : IsMedian values first)
    (isSecond : IsMedian values second) : first = second := by
  cases isFirst with
  | odd arranged sorted halves =>
      cases isSecond with
      | odd arranged' sorted' halves' =>
          have same := (arranged.trans arranged'.symm).eq_of_pairwise' sorted sorted'
          have lengths := congrArg List.length same
          simp only [List.length_append, List.length_cons] at lengths
          obtain ⟨_, tails⟩ := List.append_inj same (by omega)
          exact (List.cons.inj tails).1
      | even arranged' _ halves' =>
          have lengths := (arranged.trans arranged'.symm).length_eq
          simp only [List.length_append, List.length_cons] at lengths
          omega
  | even arranged sorted halves =>
      cases isSecond with
      | odd arranged' _ halves' =>
          have lengths := (arranged.trans arranged'.symm).length_eq
          simp only [List.length_append, List.length_cons] at lengths
          omega
      | even arranged' sorted' halves' =>
          have same := (arranged.trans arranged'.symm).eq_of_pairwise' sorted sorted'
          have lengths := congrArg List.length same
          simp only [List.length_append, List.length_cons] at lengths
          obtain ⟨_, tails⟩ := List.append_inj same (by omega)
          obtain ⟨lows, highs⟩ := List.cons.inj tails
          rw [lows, (List.cons.inj highs).1]

theorem isMedian_of_odd {sorted : List R} (ordered : sorted.Pairwise (· ≤ ·))
    (odd : sorted.length % 2 = 1) {middle : R}
    (read : sorted[sorted.length / 2]? = some middle) : IsMedian sorted middle := by
  obtain ⟨inside, entry⟩ := List.getElem?_eq_some_iff.mp read
  have split : sorted.take (sorted.length / 2) ++ middle :: sorted.drop (sorted.length / 2 + 1) =
      sorted := by
    rw [← entry, ← List.drop_eq_getElem_cons inside, List.take_append_drop]
  apply IsMedian.odd (List.Perm.of_eq split)
  · rw [split]
    exact ordered
  · simp only [List.length_take, List.length_drop]
    omega

theorem isMedian_of_even {sorted : List R} (ordered : sorted.Pairwise (· ≤ ·))
    (even : sorted.length % 2 = 0) (nonempty : 0 < sorted.length) {low high : R}
    (readLow : sorted[sorted.length / 2 - 1]? = some low)
    (readHigh : sorted[sorted.length / 2]? = some high) : IsMedian sorted ((low + high) / 2) := by
  obtain ⟨insideLow, entryLow⟩ := List.getElem?_eq_some_iff.mp readLow
  obtain ⟨insideHigh, entryHigh⟩ := List.getElem?_eq_some_iff.mp readHigh
  have next : sorted.length / 2 - 1 + 1 = sorted.length / 2 := by omega
  have split : sorted.take (sorted.length / 2 - 1) ++
      low :: high :: sorted.drop (sorted.length / 2 + 1) = sorted := by
    have dropLow := List.drop_eq_getElem_cons insideLow
    rw [next, entryLow] at dropLow
    rw [← entryHigh, ← List.drop_eq_getElem_cons insideHigh, ← dropLow, List.take_append_drop]
  apply IsMedian.even (List.Perm.of_eq split)
  · rw [split]
    exact ordered
  · simp only [List.length_take, List.length_drop]
    omega

end LibNrm.Data
