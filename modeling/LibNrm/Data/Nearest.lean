import Mathlib.Algebra.Order.Field.Basic
import Mathlib.Algebra.Order.Group.Abs
import Mathlib.Tactic.Linarith

namespace LibNrm.Data

variable {R : Type} [Field R] [LinearOrder R]

structure IsNearest (points : List R) (value nearest : R) : Prop where
  mem : nearest ∈ points
  closest : ∀ point ∈ points, |value - nearest| ≤ |value - point|
  least : ∀ point ∈ points, |value - point| = |value - nearest| → nearest ≤ point

namespace IsNearest

theorem congr {points others : List R} {value nearest : R} (isNearest : IsNearest points value nearest)
    (same : ∀ point, point ∈ others ↔ point ∈ points) : IsNearest others value nearest :=
  ⟨(same nearest).mpr isNearest.mem, fun point member => isNearest.closest point ((same point).mp member),
    fun point member => isNearest.least point ((same point).mp member)⟩

variable [IsStrictOrderedRing R]

theorem mono {points : List R} {value other low high : R} (ordered : value ≤ other)
    (isLow : IsNearest points value low) (isHigh : IsNearest points other high) : low ≤ high := by
  by_contra reversed
  have crossed : high < low := not_le.mp reversed
  have strictly : |value - low| < |value - high| :=
    lt_of_le_of_ne (isLow.closest high isHigh.mem) fun tie =>
      reversed (isLow.least high isHigh.mem tie.symm)
  have weakly := isHigh.closest low isLow.mem
  -- `value` lies above the middle of the two points and `other` does not
  have above : low + high < 2 * value := by
    rcases abs_cases (value - low) with ⟨first, _⟩ | ⟨first, _⟩ <;>
      rcases abs_cases (value - high) with ⟨second, _⟩ | ⟨second, _⟩ <;> linarith
  have below : 2 * other ≤ low + high := by
    rcases abs_cases (other - low) with ⟨first, _⟩ | ⟨first, _⟩ <;>
      rcases abs_cases (other - high) with ⟨second, _⟩ | ⟨second, _⟩ <;> linarith
  linarith

theorem unique {points : List R} {value first second : R} (isFirst : IsNearest points value first)
    (isSecond : IsNearest points value second) : first = second :=
  le_antisymm (isFirst.mono le_rfl isSecond) (isSecond.mono le_rfl isFirst)

theorem self {points : List R} {point : R} (member : point ∈ points) :
    IsNearest points point point := by
  refine ⟨member, fun other _ => ?_, fun other _ tie => ?_⟩
  · rw [sub_self, abs_zero]
    exact abs_nonneg _
  · rw [sub_self, abs_zero, abs_eq_zero, sub_eq_zero] at tie
    exact tie.le

theorem of_below {points : List R} {value least : R} (member : least ∈ points)
    (isLeast : ∀ point ∈ points, least ≤ point) (below : value ≤ least) :
    IsNearest points value least := by
  have distance (point : R) (listed : point ∈ points) : |value - point| = point - value := by
    rw [abs_sub_comm]
    exact abs_of_nonneg (sub_nonneg.mpr (below.trans (isLeast point listed)))
  refine ⟨member, fun point listed => ?_, fun point listed _ => isLeast point listed⟩
  rw [distance point listed, distance least member]
  linarith [isLeast point listed]

theorem of_above {points : List R} {value greatest : R} (member : greatest ∈ points)
    (isGreatest : ∀ point ∈ points, point ≤ greatest) (above : greatest ≤ value) :
    IsNearest points value greatest := by
  have distance (point : R) (listed : point ∈ points) : |value - point| = value - point :=
    abs_of_nonneg (sub_nonneg.mpr ((isGreatest point listed).trans above))
  refine ⟨member, fun point listed => ?_, fun point listed tie => ?_⟩
  · rw [distance point listed, distance greatest member]
    linarith [isGreatest point listed]
  · rw [distance point listed, distance greatest member] at tie
    linarith

end IsNearest

end LibNrm.Data
