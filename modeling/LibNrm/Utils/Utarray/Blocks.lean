import LibNrm.Utils.Utarray

namespace LibNrm

open UtArray

variable {sz : Nat}

/-- The bytes of elements that stand one behind the other. -/
def flat (items : List (Element sz)) : List UInt8 := (items.map Element.bytes).flatten

@[simp] theorem flat_nil : flat ([] : List (Element sz)) = [] := rfl

@[simp] theorem flat_singleton (item : Element sz) : flat [item] = item.bytes := by
  simp [flat]

@[simp] theorem flat_append (front back : List (Element sz)) :
    flat (front ++ back) = flat front ++ flat back := by
  simp [flat]

theorem flat_length (items : List (Element sz)) : (flat items).length = sz * items.length := by
  induction items with
  | nil => rfl
  | cons item items ih =>
      rw [← List.singleton_append, flat_append, List.length_append, ih, flat_singleton, item.length,
        List.length_append, List.length_singleton, Nat.mul_add, Nat.mul_one]

/-- The numbers of slots a vector can have. -/
def Capacity (n : Nat) : Prop := n = 0 ∨ ∃ k ≤ 28, n = 2 ^ (k + 3)

theorem Capacity.le {n : Nat} (capacity : Capacity n) : n ≤ 2 ^ 31 := by
  rcases capacity with rfl | ⟨k, small, rfl⟩
  · exact Nat.zero_le _
  · exact Nat.pow_le_pow_right Nat.zero_lt_two (by omega)

/-- One turn of the loop: 2³¹ slots are followed by none. -/
theorem Capacity.next {n : Nat} (capacity : Capacity n) :
    Capacity (if n ≠ 0 then 2 * n % 2 ^ 32 else 8) := by
  rcases capacity with rfl | ⟨k, small, rfl⟩
  · exact .inr ⟨0, Nat.zero_le _, rfl⟩
  · have positive : 2 ^ (k + 3) ≠ 0 := (Nat.two_pow_pos _).ne'
    rw [if_pos positive, ← Nat.pow_succ']
    rcases Nat.lt_or_eq_of_le small with less | rfl
    · refine .inr ⟨k + 1, less, Nat.mod_eq_of_lt ?_⟩
      exact Nat.pow_lt_pow_right Nat.one_lt_two (by omega)
    · exact .inl (Nat.mod_self _)

/-- More than 2³¹ slots cannot be reached. -/
theorem grow_diverges {need : Nat} (large : 2 ^ 31 < need) (turns : Nat) {n : Nat}
    (capacity : Capacity n) : grow need turns n = none := by
  induction turns generalizing n with
  | zero => rfl
  | succ turns ih =>
      have below : n < need := Nat.lt_of_le_of_lt capacity.le large
      rw [grow, if_pos below]
      exact ih capacity.next

theorem grow_pow {need : Nat} (small : need ≤ 2 ^ 31) (left : Nat) {k turns : Nat}
    (steps : k + left = 28) (enough : left < turns) :
    ∃ n, grow need turns (2 ^ (k + 3)) = some n ∧ need ≤ n ∧ Capacity n := by
  induction left generalizing k turns with
  | zero =>
      obtain rfl : k = 28 := steps
      obtain ⟨turns, rfl⟩ : ∃ less, turns = less + 1 := ⟨turns - 1, by omega⟩
      exact ⟨2 ^ (28 + 3), by rw [grow, if_neg (Nat.not_lt.mpr small)], small, .inr ⟨28, le_rfl, rfl⟩⟩
  | succ left ih =>
      obtain ⟨turns, rfl⟩ : ∃ less, turns = less + 1 := ⟨turns - 1, by omega⟩
      by_cases more : 2 ^ (k + 3) < need
      · have doubled : (if 2 ^ (k + 3) ≠ 0 then 2 * 2 ^ (k + 3) % 2 ^ 32 else 8) = 2 ^ (k + 1 + 3) := by
          rw [if_pos (Nat.two_pow_pos _).ne', ← Nat.pow_succ', Nat.mod_eq_of_lt
            (Nat.pow_lt_pow_right Nat.one_lt_two (by omega))]
        rw [grow, if_pos more, doubled]
        exact ih (by omega) (by omega)
      · exact ⟨2 ^ (k + 3), by rw [grow, if_neg more], Nat.not_lt.mp more, .inr ⟨k, by omega, rfl⟩⟩

theorem grow_spec {need n : Nat} (small : need ≤ 2 ^ 31) (capacity : Capacity n) :
    ∃ more, grow need 64 n = some more ∧ need ≤ more ∧ Capacity more := by
  rcases capacity with rfl | ⟨k, bounded, rfl⟩
  · by_cases none : need = 0
    · exact ⟨0, by rw [grow, if_neg (by omega)], by omega, .inl rfl⟩
    · rw [grow, if_pos (by omega)]
      exact grow_pow small 28 (Nat.zero_add 28) (by omega)
  · exact grow_pow small (28 - k) (by omega) (by omega)

structure VectorHolds (vector : UtArray sz) (items : List (Element sz)) : Prop where
  length : vector.i = items.length
  block : vector.d.length = sz * vector.n
  capacity : Capacity vector.n
  content : ∃ rest, vector.d = flat items ++ rest

section Holds

variable {vector : UtArray sz} {items : List (Element sz)}

theorem VectorHolds.length_le (holds : VectorHolds vector items) (positive : 0 < sz) : items.length ≤ vector.n := by
  obtain ⟨rest, content⟩ := holds.content
  have block := holds.block
  rw [content, List.length_append, flat_length] at block
  exact Nat.le_of_mul_le_mul_left (Nat.le.intro block) positive

theorem mul_lt_of_slot {j : Nat} (fits : sz ≤ 2 ^ 32) (slot : j ≤ 2 ^ 31) : sz * j < 2 ^ 64 := by
  calc sz * j ≤ 2 ^ 32 * 2 ^ 31 := Nat.mul_le_mul fits slot
    _ < 2 ^ 64 := by norm_num

theorem eltptr_eq {j : Nat} (fits : sz ≤ 2 ^ 32) (slot : j ≤ 2 ^ 31) : eltptr sz j = sz * j :=
  Nat.mod_eq_of_lt (mul_lt_of_slot fits slot)

theorem VectorHolds.reserve (holds : VectorHolds vector items) (fits : sz ≤ 2 ^ 32) {alloc : Allocator}
    (granted : ∀ size, alloc.granted size = true) {need : Nat} (small : need ≤ 2 ^ 31) :
    ∃ after, vector.reserve alloc need = .ok (true, after) ∧ need ≤ after.n ∧ VectorHolds after items := by
  by_cases more : vector.n < need
  · obtain ⟨n, grown, enough, capacity⟩ := grow_spec small holds.capacity
    obtain ⟨rest, content⟩ := holds.content
    have size : n * sz % 2 ^ 64 = sz * n := by
      rw [Nat.mul_comm]
      exact Nat.mod_eq_of_lt (mul_lt_of_slot fits capacity.le)
    have larger : vector.d.length ≤ sz * n := by
      rw [holds.block]
      exact Nat.mul_le_mul_left sz (by omega)
    have moved : realloc alloc vector.d (sz * n) =
        vector.d ++ (List.range (sz * n - vector.d.length)).map alloc.garbage := by
      rw [realloc, List.take_of_length_le larger]
    refine ⟨{ vector with n := n, d := realloc alloc vector.d (sz * n) }, ?_, enough,
      holds.length, ?_, capacity, ?_⟩
    · simp only [UtArray.reserve, if_pos more, grown, size, granted, ↓reduceIte]
    · change (realloc alloc vector.d (sz * n)).length = sz * n
      rw [moved, List.length_append, List.length_map, List.length_range]
      omega
    · exact ⟨rest ++ _, by rw [moved, content, List.append_assoc]⟩
  · exact ⟨vector, by rw [UtArray.reserve, if_neg more], Nat.not_lt.mp more, holds⟩

theorem VectorHolds.reserve_diverges (holds : VectorHolds vector items) (alloc : Allocator) {need : Nat}
    (large : 2 ^ 31 < need) : vector.reserve alloc need = .error .diverges := by
  have below : vector.n < need := Nat.lt_of_le_of_lt holds.capacity.le large
  simp only [UtArray.reserve, if_pos below, grow_diverges large 64 holds.capacity]

theorem VectorHolds.store (holds : VectorHolds vector items) (more : List (Element sz))
    (room : items.length + more.length ≤ vector.n) :
    ∃ d, (∀ i, ({ vector with i := i } : UtArray sz).store (sz * items.length) (flat more) =
        .ok { vector with i := i, d := d }) ∧
      VectorHolds ⟨items.length + more.length, vector.n, d⟩ (items ++ more) := by
  obtain ⟨rest, content⟩ := holds.content
  have block := holds.block
  have inside : (flat more).length ≤ rest.length := by
    rw [content, List.length_append, flat_length] at block
    rw [flat_length]
    have slots : sz * (items.length + more.length) ≤ sz * vector.n := Nat.mul_le_mul_left sz room
    rw [Nat.mul_add] at slots
    omega
  have written := Data.splice_append (flat items) inside
  rw [flat_length, ← content] at written
  refine ⟨flat items ++ flat more ++ rest.drop (flat more).length, ?_, ?_⟩
  · intro i
    simp only [UtArray.store, written]
  · refine ⟨?_, ?_, holds.capacity, ?_⟩
    · rw [List.length_append]
    · rw [← block, ← Data.splice_length written]
    · exact ⟨rest.drop (flat more).length, by rw [flat_append]⟩

theorem VectorHolds.load (holds : VectorHolds vector items) (front middle back : List (Element sz))
    (split : items = front ++ middle ++ back) :
    vector.load (sz * front.length) (sz * middle.length) = .ok (flat middle) := by
  obtain ⟨rest, content⟩ := holds.content
  rw [split, flat_append, flat_append, List.append_assoc, List.append_assoc] at content
  have inside : sz * front.length + sz * middle.length ≤ vector.d.length := by
    rw [content, List.length_append, List.length_append, flat_length, flat_length]
    omega
  rw [UtArray.load, if_pos inside, Data.extract, content, ← flat_length front, List.drop_left,
    ← flat_length middle, List.take_left]

end Holds

end LibNrm
