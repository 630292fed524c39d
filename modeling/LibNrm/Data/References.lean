import Mathlib.Algebra.BigOperators.Group.Finset.Basic
import Mathlib.Data.Fintype.Basic
import Mathlib.Algebra.Order.BigOperators.Group.Finset

namespace LibNrm.Data

/-! Reference counts, and queues whose messages hold references.

A key is allocated once, with one reference, and gone for good when its count
falls to zero; taking or giving back a reference to a key that is not there has
no result.  `inQueues` counts a message over a finite family of queues.
-/

structure RefCounts (K : Type) where
  counts : K → Option Nat

namespace RefCounts

variable {K : Type}

def empty : RefCounts K := ⟨fun _ => none⟩

def count (refs : RefCounts K) (key : K) : Nat := (refs.counts key).getD 0

@[simp] theorem count_empty (key : K) : (empty : RefCounts K).count key = 0 := rfl

variable [DecidableEq K]

def create (refs : RefCounts K) (key : K) : RefCounts K :=
  ⟨Function.update refs.counts key (some 1)⟩

def incref (refs : RefCounts K) (key : K) : Option (RefCounts K) :=
  if refs.count key = 0 then none
  else some ⟨Function.update refs.counts key (some (refs.count key + 1))⟩

def decref (refs : RefCounts K) (key : K) : Option (RefCounts K) :=
  if refs.count key = 0 then none
  else some ⟨Function.update refs.counts key (some (refs.count key - 1))⟩

theorem count_update (refs : RefCounts K) (key other : K) (count : Nat) :
    RefCounts.count ⟨Function.update refs.counts key (some count)⟩ other =
      if other = key then count else refs.count other := by
  simp only [RefCounts.count, Function.update_apply]
  split <;> rfl

theorem count_create (refs : RefCounts K) (key other : K) :
    (refs.create key).count other = if other = key then 1 else refs.count other :=
  refs.count_update key other 1

theorem count_incref {refs after : RefCounts K} {key : K} (taken : refs.incref key = some after)
    (other : K) : after.count other = refs.count other + if other = key then 1 else 0 := by
  unfold incref at taken
  split at taken
  · cases taken
  · cases taken
    rw [count_update]
    split
    · rename_i same
      rw [same]
    · rfl

theorem count_decref {refs after : RefCounts K} {key : K} (given : refs.decref key = some after)
    (other : K) : refs.count other = after.count other + if other = key then 1 else 0 := by
  unfold decref at given
  split at given
  · cases given
  · cases given
    rw [count_update]
    split
    · rename_i same
      subst same
      omega
    · rfl

theorem incref_completes {refs : RefCounts K} {key : K} (live : 0 < refs.count key) :
    ∃ after, refs.incref key = some after := by
  have present : refs.count key ≠ 0 := by omega
  exact ⟨_, by simp only [incref, present, ↓reduceIte]; rfl⟩

theorem decref_completes {refs : RefCounts K} {key : K} (live : 0 < refs.count key) :
    ∃ after, refs.decref key = some after := by
  have present : refs.count key ≠ 0 := by omega
  exact ⟨_, by simp only [decref, present, ↓reduceIte]; rfl⟩

end RefCounts

section Queues

variable {B M : Type} [Fintype B] [DecidableEq M]

def inQueues (queues : B → List M) (message : M) : Nat := ∑ b, (queues b).count message

theorem inQueues_pos_iff {queues : B → List M} {message : M} :
    0 < inQueues queues message ↔ ∃ b, message ∈ queues b := by
  unfold inQueues
  rw [Finset.sum_pos_iff]
  simp [List.count_pos_iff]

variable [DecidableEq B]

theorem inQueues_update (queues : B → List M) (b : B) (changed : List M) (message : M) :
    inQueues (Function.update queues b changed) message + (queues b).count message =
      inQueues queues message + changed.count message := by
  have others : ∑ c ∈ Finset.univ.erase b, (Function.update queues b changed c).count message =
      ∑ c ∈ Finset.univ.erase b, (queues c).count message := by
    apply Finset.sum_congr rfl
    intro c member
    rw [Function.update_of_ne (Finset.ne_of_mem_erase member)]
  have before := Finset.add_sum_erase Finset.univ (fun c => (queues c).count message)
    (Finset.mem_univ b)
  have after := Finset.add_sum_erase Finset.univ
    (fun c => (Function.update queues b changed c).count message) (Finset.mem_univ b)
  simp only [Function.update_self] at after
  unfold inQueues
  omega

theorem inQueues_push (queues : B → List M) (b : B) (message other : M) :
    inQueues (Function.update queues b (queues b ++ [message])) other =
      inQueues queues other + if message = other then 1 else 0 := by
  have changed := inQueues_update queues b (queues b ++ [message]) other
  simp only [List.count_append, List.count_singleton, beq_iff_eq] at changed
  omega

theorem inQueues_pop {queues : B → List M} {b : B} {message : M} {rest : List M}
    (first : queues b = message :: rest) (other : M) :
    inQueues queues other =
      inQueues (Function.update queues b rest) other + if message = other then 1 else 0 := by
  have changed := inQueues_update queues b rest other
  rw [first] at changed
  simp only [List.count_cons, beq_iff_eq] at changed
  omega

end Queues

end LibNrm.Data
