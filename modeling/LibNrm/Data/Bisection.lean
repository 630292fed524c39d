import Mathlib.Data.Nat.Init

namespace LibNrm.Data

/-! Halving an interval of positions.

A probe tells on which side of a position to go on: it is positive where the
position is too low, negative where it is too high, and zero where it will do.
-/

def bisect (probe : Nat → Int) : Nat → Nat → Nat → Option Nat
  | 0, _, _ => none
  | fuel + 1, l, u =>
      if l < u then
        let middle := (l + u) / 2
        if probe middle < 0 then bisect probe fuel l middle
        else if probe middle > 0 then bisect probe fuel (middle + 1) u
        else some middle
      else none

/-- The upper end of the interval that the halving of `[l, u)` has at hand when it
comes to a position. -/
def reach : Nat → Nat → Nat → Nat → Nat
  | 0, _, u, _ => u
  | fuel + 1, l, u, i =>
      let middle := (l + u) / 2
      if i < middle then reach fuel l middle i
      else if middle < i then reach fuel (middle + 1) u i
      else u

/-- A probe that finds the positions from `low` to `high` right, and no others. -/
structure Locates (probe : Nat → Int) (l u low high : Nat) : Prop where
  below : ∀ i, l ≤ i → i < u → (0 < probe i ↔ i < low)
  above : ∀ i, l ≤ i → i < u → (probe i < 0 ↔ high ≤ i)

variable {probe : Nat → Int} {l u low high : Nat}

theorem Locates.left (locates : Locates probe l u low high) {middle : Nat} (inside : middle ≤ u) :
    Locates probe l middle low high where
  below i lower upper := locates.below i lower (by omega)
  above i lower upper := locates.above i lower (by omega)

theorem Locates.right (locates : Locates probe l u low high) {middle : Nat} (inside : l ≤ middle) :
    Locates probe middle u low high where
  below i lower upper := locates.below i (by omega) upper
  above i lower upper := locates.above i (by omega) upper

/-- The search gives up only if there is nothing to find, and finds nothing wrong. -/
theorem bisect_spec {fuel : Nat} (enough : u - l ≤ fuel) (lower : l ≤ low) (upper : high ≤ u)
    (ordered : low ≤ high) (locates : Locates probe l u low high) :
    (low = high ∧ bisect probe fuel l u = none) ∨
      ∃ i, low ≤ i ∧ i < high ∧ bisect probe fuel l u = some i := by
  induction fuel generalizing l u with
  | zero => exact .inl ⟨by omega, rfl⟩
  | succ fuel ih =>
      rw [bisect]
      by_cases nonempty : l < u
      · have middle : l ≤ (l + u) / 2 ∧ (l + u) / 2 < u := by omega
        have below := locates.below _ middle.1 middle.2
        have above := locates.above _ middle.1 middle.2
        rw [if_pos nonempty]
        by_cases high' : probe ((l + u) / 2) < 0
        · rw [if_pos high']
          exact ih (by omega) lower (above.mp high') (locates.left (by omega))
        · rw [if_neg high']
          by_cases low' : probe ((l + u) / 2) > 0
          · rw [if_pos low']
            exact ih (by omega) (below.mp low') upper (locates.right (by omega))
          · rw [if_neg low']
            exact .inr ⟨_, by omega, by omega, rfl⟩
      · exact .inl ⟨by omega, if_neg nonempty⟩

theorem reach_le (fuel : Nat) {i : Nat} (lower : l ≤ i) (upper : i < u) : reach fuel l u i ≤ u := by
  induction fuel generalizing l u with
  | zero => exact Nat.le_refl _
  | succ fuel ih =>
      rw [reach]
      split
      · rename_i before
        have shorter := ih lower before
        omega
      · split
        · rename_i behind
          exact ih behind upper
        · exact Nat.le_refl _

/-- The position found is the first one exactly if the halving comes to it while all
the others are still at hand. -/
theorem bisect_eq_first_iff {fuel : Nat} (enough : u - l ≤ fuel) (lower : l ≤ low)
    (upper : high ≤ u) (nonempty : low < high) (locates : Locates probe l u low high) :
    bisect probe fuel l u = some low ↔ high ≤ reach fuel l u low := by
  induction fuel generalizing l u with
  | zero => omega
  | succ fuel ih =>
      have middle : l ≤ (l + u) / 2 ∧ (l + u) / 2 < u := by omega
      have below := locates.below _ middle.1 middle.2
      have above := locates.above _ middle.1 middle.2
      rw [bisect, reach, if_pos (by omega)]
      by_cases high' : probe ((l + u) / 2) < 0
      · rw [if_pos high', if_pos (by omega)]
        exact ih (by omega) lower (above.mp high') (locates.left (by omega))
      · rw [if_neg high']
        by_cases low' : probe ((l + u) / 2) > 0
        · rw [if_pos low', if_neg (by omega), if_pos (below.mp low')]
          exact ih (by omega) (below.mp low') upper (locates.right (by omega))
        · rw [if_neg low']
          by_cases first : low = (l + u) / 2
          · rw [if_neg (by omega), if_neg (by omega), ← first]
            simp [upper]
          · -- the search stops inside the run, and the first position lies to the left
            have inside : low < (l + u) / 2 := by omega
            have short := reach_le fuel lower inside
            rw [if_pos (by omega)]
            constructor
            · intro found
              exact absurd (Option.some.inj found).symm first
            · intro whole
              omega

end LibNrm.Data
