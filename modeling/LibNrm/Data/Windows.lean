import Mathlib.Data.List.Perm.Basic
import Mathlib.Data.List.Flatten
import Mathlib.Order.Lattice

namespace LibNrm.Data

/-! Consuming a growing collection by windows.

Items arrive in any order and carry a key.  A consumer keeps a mark: it takes
the items whose key lies between the mark and an upper end of its choosing, and
then moves the mark.  Two questions decide whether such a consumer is exact: can
two windows overlap, and can an item fall between them.
-/

structure Windows (E K : Type) where
  pushed : List E
  consumed : List (List E)
  mark : K

namespace Windows

variable {E K : Type} [LinearOrder K]

def push (w : Windows E K) (items : List E) : Windows E K := { w with pushed := w.pushed ++ items }

def take (w : Windows E K) (series : List E) (next : K) : Windows E K :=
  { w with consumed := w.consumed ++ [series], mark := next }

/-- The items a window up to `upper` selects. -/
def window (key : E → K) (w : Windows E K) (upper : K) : List E :=
  w.pushed.filter fun e => w.mark ≤ key e ∧ key e < upper

structure Separated (key : E → K) (w : Windows E K) : Prop where
  below : ∀ series ∈ w.consumed, ∀ e ∈ series, key e < w.mark
  disjoint : w.consumed.Pairwise fun first second => ∀ e ∈ first, e ∉ second

theorem Separated.push {key : E → K} {w : Windows E K} (separated : w.Separated key)
    (items : List E) : (w.push items).Separated key :=
  ⟨separated.below, separated.disjoint⟩

/-- Windows stay apart as long as the mark never falls behind a window's upper end. -/
theorem Separated.take {key : E → K} {w : Windows E K} (separated : w.Separated key)
    {series : List E} {upper next : K} (taken : series.Perm (w.window key upper))
    (forward : w.mark ≤ next) (passed : upper ≤ next) : (w.take series next).Separated key := by
  have inside : ∀ e ∈ series, w.mark ≤ key e ∧ key e < upper := by
    intro e member
    have selected := List.mem_filter.mp (taken.subset member)
    simpa using selected.2
  constructor
  · intro other consumed e member
    rcases List.mem_append.mp consumed with old | new
    · exact lt_of_lt_of_le (separated.below other old e member) forward
    · rw [List.mem_singleton.mp new] at member
      exact lt_of_lt_of_le (inside e member).2 passed
  · refine List.pairwise_append.mpr ⟨separated.disjoint, List.pairwise_singleton _ _, ?_⟩
    intro first old second new e inFirst inSecond
    rw [List.mem_singleton.mp new] at inSecond
    exact absurd (separated.below first old e inFirst) (not_lt.mpr (inside e inSecond).1)

variable [DecidableEq E]

/-- Every relevant item whose key the mark has passed was consumed as often as it was
pushed. -/
def Covered (key : E → K) (relevant : E → Prop) (w : Windows E K) : Prop :=
  ∀ e, relevant e → key e < w.mark → w.pushed.count e ≤ w.consumed.flatten.count e

theorem Covered.push {key : E → K} {relevant : E → Prop} {w : Windows E K}
    (covered : w.Covered key relevant) {items : List E}
    (timely : ∀ e ∈ items, relevant e → w.mark ≤ key e) : (w.push items).Covered key relevant := by
  intro e important passed
  have absent : items.count e = 0 := by
    apply List.count_eq_zero.mpr
    intro member
    exact absurd passed (not_lt.mpr (timely e member important))
  have before := covered e important passed
  simp only [Windows.push, List.count_append, absent, Nat.add_zero]
  exact before

/-- No relevant item is lost if none lies between a window's upper end and the next mark. -/
theorem Covered.take {key : E → K} {relevant : E → Prop} {w : Windows E K}
    (covered : w.Covered key relevant) {series : List E} {upper next : K}
    (taken : series.Perm (w.window key upper))
    (noGap : ∀ e ∈ w.pushed, relevant e → ¬ (upper ≤ key e ∧ key e < next)) :
    (w.take series next).Covered key relevant := by
  intro e important passed
  simp only [Windows.take, List.flatten_append, List.flatten_singleton, List.count_append]
  rcases lt_or_ge (key e) w.mark with old | current
  · exact Nat.le_add_right_of_le (covered e important old)
  · by_cases present : e ∈ w.pushed
    · have inside : key e < upper := by
        by_contra outside
        exact noGap e present important ⟨not_lt.mp outside, passed⟩
      have all : series.count e = w.pushed.count e := by
        rw [taken.count_eq, window, List.count_filter (by simpa using ⟨current, inside⟩)]
      omega
    · simp [List.count_eq_zero.mpr present]

end Windows

end LibNrm.Data
