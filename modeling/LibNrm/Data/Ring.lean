import Mathlib.Data.List.Basic
import Mathlib.Order.Interval.Finset.Nat

namespace LibNrm.Data

variable {α : Type} {slot after : Nat → Option α} {n : Nat} {items : List α}

/-- The last items, at most `n` of them. -/
def recent (n : Nat) (items : List α) : List α := items.drop (items.length - n)

theorem recent_length (n : Nat) (items : List α) : (recent n items).length = min items.length n := by
  rw [recent, List.length_drop]
  omega

/-- Each of the last `n` items is in the slot of its number modulo `n`. -/
def Cycles (slot : Nat → Option α) (n : Nat) (items : List α) : Prop :=
  ∀ j x, items[j]? = some x → items.length ≤ j + n → slot (j % n) = some x

theorem Cycles.nil (slot : Nat → Option α) (n : Nat) : Cycles slot n [] := by
  intro j x read
  cases read

theorem mod_ne_of_lt {j p : Nat} (before : j < p) (near : p < j + n) : j % n ≠ p % n := by
  intro same
  have equal := Nat.mod_injOn_Ico j n (by simp; omega) (by simp; omega) same
  omega

theorem Cycles.push (cycles : Cycles slot n items) {x : α}
    (written : after (items.length % n) = some x)
    (kept : ∀ k < n, k ≠ items.length % n → after k = slot k) : Cycles after n (items ++ [x]) := by
  intro j y read near
  rw [List.length_append, List.length_singleton] at near
  rcases Nat.lt_or_ge j items.length with old | new
  · rw [List.getElem?_append_left old] at read
    have inside : j % n < n := Nat.mod_lt j (by omega)
    rw [kept (j % n) inside (mod_ne_of_lt old (by omega))]
    exact cycles j y read (by omega)
  · have position : j = items.length := by
      have inside := (List.getElem?_eq_some_iff.mp read).1
      rw [List.length_append, List.length_singleton] at inside
      omega
    rw [position, List.getElem?_concat_length] at read
    rw [position, written, read]

theorem Cycles.read (cycles : Cycles slot n items) {index : Nat} {x : α}
    (read : (recent n items)[index]? = some x) :
    slot ((index + (items.length - n)) % n) = some x := by
  rw [recent, List.getElem?_drop, Nat.add_comm] at read
  exact cycles _ x read (by omega)

theorem succ_mod_of_last {p : Nat} (last : p % n + 1 = n) : (p + 1) % n = 0 := by
  have whole := Nat.div_add_mod p n
  have sum : p + 1 = n * (p / n + 1) := by
    rw [Nat.mul_add, Nat.mul_one]
    omega
  rw [sum, Nat.mul_mod_right]

theorem succ_mod_of_not_last {p : Nat} (positive : 0 < n) (inside : p % n + 1 ≠ n) :
    (p + 1) % n = p % n + 1 := by
  have below := Nat.mod_lt p positive
  rw [Nat.add_mod_eq_ite]
  rcases Nat.lt_or_ge 1 n with many | single
  · rw [Nat.mod_eq_of_lt many, if_neg (by omega)]
  · have none : p % n = 0 := by omega
    omega

theorem le_succ_iff_of_last {p : Nat} (last : p % n + 1 = n) : n ≤ p + 1 := by
  have below := Nat.mod_le p n
  omega

theorem le_succ_iff_of_not_last {p : Nat} (inside : p % n + 1 ≠ n) : n ≤ p + 1 ↔ n ≤ p := by
  constructor
  · intro reached
    by_contra short
    have equal : p + 1 = n := by omega
    rw [Nat.mod_eq_of_lt (by omega)] at inside
    exact inside equal
  · omega

end LibNrm.Data
