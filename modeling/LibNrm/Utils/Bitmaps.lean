import LibNrm.Utils.Basic
import Mathlib.Data.Nat.Count

namespace LibNrm

/-- `struct nrm_bitmap`: 2048 bits in 32 words of 64. -/
structure Bitmap where
  mask : Vector (BitVec 64) 32
deriving DecidableEq, Repr

/-- `NRM_BITMAP_MAX` -/
def bitmapMax : Nat := 2048

/-- The conversion of an integer argument to `unsigned int`. -/
def unsignedInt (value : Int) : Nat := (value % 2 ^ 32).toNat

namespace Bitmap

theorem nth_lt {i : Nat} (inside : i < bitmapMax) : i / 64 < 32 := by
  unfold bitmapMax at inside
  omega

/-- `nrm_bitmap_isset` -/
def isset (map : Bitmap) (i : Nat) : Int :=
  if inside : i < bitmapMax then
    have := nth_lt inside
    if map.mask[i / 64] &&& (1#64 <<< (i % 64)) ≠ 0 then 1 else 0
  else -1

/-- `nrm_bitmap_set`, with its return code. -/
def set (map : Bitmap) (i : Nat) : Int × Bitmap :=
  if inside : i < bitmapMax then
    have := nth_lt inside
    (0, ⟨map.mask.set (i / 64) (map.mask[i / 64] ||| (1#64 <<< (i % 64)))⟩)
  else (-1, map)

/-- `nrm_bitmap_reset` -/
def reset : Bitmap := ⟨Vector.replicate 32 0⟩

/-- The inner loop of `nrm_bitmap_nset`: test the lowest bit and shift. -/
def wordNset : Nat → BitVec 64 → Nat
  | 0, _ => 0
  | count + 1, word => (if word &&& 1#64 ≠ 0 then 1 else 0) + wordNset count (word >>> 1)

/-- `nrm_bitmap_nset` -/
def nset (map : Bitmap) : Nat := (map.mask.toList.map (wordNset 64)).sum

/-- The loop of `nrm_bitmap_to_array` from index `i` with `found` bits already
stored; it stops early once `size` bits are stored. -/
def toArrayFrom (map : Bitmap) (size : Nat) : Nat → Nat → Nat → List Int
  | 0, _, _ => []
  | fuel + 1, i, found =>
      if found < size then
        if map.isset i ≠ 0 then (i : Int) :: toArrayFrom map size fuel (i + 1) (found + 1)
        else toArrayFrom map size fuel (i + 1) found
      else []

/-- `nrm_bitmap_to_array`: a zeroed array of `nrm_bitmap_nset` items, filled by the loop. -/
def toArray (map : Bitmap) : List Int :=
  let size := map.nset
  let items := toArrayFrom map size bitmapMax 0 0
  items ++ List.replicate (size - items.length) 0

/-- `nrm_bitmap_from_array` -/
def fromArray (items : List Int) : Bitmap :=
  items.foldl (fun map item => (map.set (unsignedInt item)).2) reset

def bit (map : Bitmap) (i : Nat) : Bool :=
  if inside : i < bitmapMax then
    have := nth_lt inside
    map.mask[i / 64].getLsbD (i % 64)
  else false

private theorem and_bit_ne_zero (word : BitVec 64) {j : Nat} (small : j < 64) :
    word &&& (1#64 <<< j) ≠ 0 ↔ word.getLsbD j = true := by
  have single (k : Nat) : (1#64 <<< j).getLsbD k = decide (k = j) := by
    rw [BitVec.getLsbD_shiftLeft, BitVec.getLsbD_one]
    by_cases same : k = j
    · simp [same, small]
    · by_cases below : k < j
      · simp [same, below]
      · have positive : k - j ≠ 0 := by omega
        simp [same, positive]
  constructor
  · intro nonzero
    by_contra unset
    apply nonzero
    apply BitVec.eq_of_getLsbD_eq
    intro k _
    rw [BitVec.getLsbD_and, single]
    by_cases same : k = j
    · subst same
      rw [Bool.eq_false_iff.mpr unset]
      simp
    · simp [same]
  · intro isSet zero
    have selected := congrArg (fun word => word.getLsbD j) zero
    simp [single, isSet] at selected

theorem isset_ne_zero {map : Bitmap} {i : Nat} (inside : i < bitmapMax) :
    map.isset i ≠ 0 ↔ map.bit i = true := by
  have within := nth_lt inside
  have selected := and_bit_ne_zero map.mask[i / 64] (Nat.mod_lt i (by omega : 0 < 64))
  simp only [isset, bit, inside, ↓reduceDIte]
  rw [← selected]
  split <;> simp_all

theorem bit_inside {map : Bitmap} {i : Nat} (isSet : map.bit i = true) : i < bitmapMax := by
  by_contra outside
  simp [bit, outside] at isSet

theorem isset_eq_one_iff (map : Bitmap) (i : Nat) : map.isset i = 1 ↔ map.bit i = true := by
  by_cases inside : i < bitmapMax
  · rw [← isset_ne_zero inside]
    simp only [isset, inside, ↓reduceDIte]
    split <;> simp
  · simp [isset, bit, inside]

theorem bit_word (map : Bitmap) {n k : Nat} (row : n < 32) (column : k < 64) :
    map.bit (64 * n + k) = map.mask[n].getLsbD k := by
  have inside : 64 * n + k < bitmapMax := by
    unfold bitmapMax
    omega
  have rowIndex : (64 * n + k) / 64 = n := by omega
  have columnIndex : (64 * n + k) % 64 = k := by omega
  simp only [bit, inside, ↓reduceDIte, rowIndex, columnIndex]

theorem ext_bit {left right : Bitmap}
    (same : ∀ i < bitmapMax, left.bit i = right.bit i) : left = right := by
  obtain ⟨leftMask⟩ := left
  obtain ⟨rightMask⟩ := right
  congr 1
  apply Vector.ext
  intro n within
  apply BitVec.eq_of_getLsbD_eq
  intro j small
  have inside : 64 * n + j < bitmapMax := by
    unfold bitmapMax
    omega
  have selected := same (64 * n + j) inside
  rw [bit_word _ within small, bit_word _ within small] at selected
  exact selected

theorem bit_reset (i : Nat) : reset.bit i = false := by
  unfold bit reset
  split <;> simp

theorem bit_set (map : Bitmap) (j : Nat) {i : Nat} (inside : i < bitmapMax) :
    (map.set j).2.bit i = (map.bit i || decide (i = j)) := by
  by_cases target : j < bitmapMax
  · have withinI := nth_lt inside
    have withinJ := nth_lt target
    simp only [set, bit, inside, target, ↓reduceDIte]
    by_cases row : i / 64 = j / 64
    · have single : (1#64 <<< (j % 64)).getLsbD (i % 64) = decide (i = j) := by
        rw [BitVec.getLsbD_shiftLeft, BitVec.getLsbD_one]
        have smallI : i % 64 < 64 := Nat.mod_lt i (by omega)
        by_cases same : i = j
        · subst same
          simp [smallI]
        · by_cases below : i % 64 < j % 64
          · simp [same, below]
          · have positive : i % 64 - j % 64 ≠ 0 := by omega
            simp [same, positive]
      simp [row, BitVec.getLsbD_or, single]
    · have different : i ≠ j := fun same => row (by rw [same])
      have apart : j / 64 ≠ i / 64 := fun same => row same.symm
      simp [apart, different]
  · have different : i ≠ j := fun same => target (same ▸ inside)
    simp [set, target, different]

theorem bit_fromArray (items : List Int) {i : Nat} (inside : i < bitmapMax) :
    (fromArray items).bit i = true ↔ ∃ item ∈ items, unsignedInt item = i := by
  have fold (map : Bitmap) : (items.foldl (fun map item => (map.set (unsignedInt item)).2) map).bit i
      = true ↔ map.bit i = true ∨ ∃ item ∈ items, unsignedInt item = i := by
    induction items generalizing map with
    | nil => simp
    | cons item rest ih =>
        rw [List.foldl_cons, ih, bit_set map _ inside, Bool.or_eq_true, decide_eq_true_eq,
          eq_comm (a := i)]
        simp only [List.mem_cons, exists_eq_or_imp, or_assoc]
  unfold fromArray
  rw [fold]
  simp [bit_reset]

private theorem wordNset_eq_count (n : Nat) (word : BitVec 64) :
    wordNset n word = Nat.count (fun k => word.getLsbD k = true) n := by
  induction n generalizing word with
  | zero => rfl
  | succ n ih =>
      rw [wordNset, ih, Nat.count_succ']
      have lowest := and_bit_ne_zero word (j := 0) (by omega)
      rw [BitVec.shiftLeft_zero] at lowest
      have shifted : (fun k => (word >>> 1).getLsbD k = true) =
          (fun k => word.getLsbD (k + 1) = true) := by
        funext k
        rw [BitVec.getLsbD_ushiftRight, Nat.add_comm]
      simp only [shifted, lowest]
      omega

private theorem take_nset_eq_count (map : Bitmap) (n : Nat) (within : n ≤ 32) :
    ((map.mask.toList.take n).map (wordNset 64)).sum =
      Nat.count (fun i => map.bit i = true) (64 * n) := by
  induction n with
  | zero => rfl
  | succ n ih =>
      have row : n < map.mask.toList.length := by
        rw [Vector.length_toList]
        omega
      rw [List.take_add_one, List.map_append, List.sum_append, ih (by omega),
        Nat.mul_succ, Nat.count_add, List.getElem?_eq_getElem row]
      simp only [Option.toList_some, List.map_cons, List.map_nil, List.sum_cons, List.sum_nil,
        Nat.add_zero, wordNset_eq_count]
      congr 1
      simp only [Nat.count_eq_card_filter_range]
      congr 1
      apply Finset.filter_congr
      intro k member
      rw [bit_word map (by omega) (Finset.mem_range.mp member), Vector.getElem_toList]

theorem nset_eq_count (map : Bitmap) :
    map.nset = Nat.count (fun i => map.bit i = true) bitmapMax := by
  have whole := take_nset_eq_count map 32 (by omega)
  rw [List.take_of_length_le (by rw [Vector.length_toList])] at whole
  exact whole

private theorem toArrayFrom_eq_filter (map : Bitmap) (size fuel i found : Nat)
    (range : i + fuel ≤ bitmapMax)
    (enough : size = found + Nat.count (fun k => map.bit (i + k) = true) fuel) :
    toArrayFrom map size fuel i found =
      ((List.range' i fuel).filter (fun k => map.bit k)).map Int.ofNat := by
  induction fuel generalizing i found with
  | zero => rfl
  | succ fuel ih =>
      have inside : i < bitmapMax := by omega
      have shifted : (fun k => map.bit (i + (k + 1)) = true) =
          (fun k => map.bit (i + 1 + k) = true) := by
        funext k
        rw [Nat.add_comm k 1, Nat.add_assoc]
      rw [Nat.count_succ'] at enough
      simp only [shifted, Nat.add_zero] at enough
      rw [List.range'_succ, toArrayFrom]
      simp only [isset_ne_zero inside]
      by_cases here : map.bit i = true
      · simp only [here, ↓reduceIte] at enough
        rw [if_pos (by omega), if_pos here, ih (i + 1) (found + 1) (by omega) (by omega)]
        simp [here]
      · simp only [here, Bool.false_eq_true, ↓reduceIte, Nat.add_zero] at enough
        rw [List.filter_cons_of_neg here]
        by_cases more : found < size
        · rw [if_pos more, if_neg here, ih (i + 1) found (by omega) enough]
        · -- nothing is left, so stopping early loses no index
          have none_left : Nat.count (fun k => map.bit (i + 1 + k) = true) fuel = 0 := by omega
          have empty : (List.range' (i + 1) fuel).filter (fun k => map.bit k) = [] := by
            rw [List.filter_eq_nil_iff]
            intro k member
            obtain ⟨offset, small, rfl⟩ := List.mem_range'.mp member
            have unset := Nat.count_iff_forall_not.mp none_left offset small
            simpa using unset
          rw [if_neg more, empty]
          rfl

/-- The loop lists the indices of a map in increasing order, all of them. -/
theorem toArrayFrom_nset (map : Bitmap) :
    toArrayFrom map map.nset bitmapMax 0 0 =
      ((List.range bitmapMax).filter (fun i => map.bit i)).map Int.ofNat := by
  have counted : map.nset = 0 + Nat.count (fun k => map.bit (0 + k) = true) bitmapMax := by
    simpa using map.nset_eq_count
  have loop := toArrayFrom_eq_filter map map.nset bitmapMax 0 0 (by omega) counted
  rw [← List.range_eq_range'] at loop
  exact loop

theorem length_filter_bit (map : Bitmap) :
    ((List.range bitmapMax).filter fun i => map.bit i).length = map.nset := by
  rw [nset_eq_count, Nat.count, List.countP_eq_length_filter]
  simp only [Bool.decide_eq_true]

theorem toArray_eq_filter (map : Bitmap) :
    map.toArray = ((List.range bitmapMax).filter (fun i => map.bit i)).map Int.ofNat := by
  simp only [toArray, toArrayFrom_nset, List.length_map, length_filter_bit, Nat.sub_self,
    List.replicate_zero, List.append_nil]

theorem fromArray_toArray (map : Bitmap) : fromArray map.toArray = map := by
  apply ext_bit
  intro i inside
  have small : i < 2 ^ 32 := by
    unfold bitmapMax at inside
    omega
  rw [Bool.eq_iff_iff, bit_fromArray _ inside, toArray_eq_filter]
  constructor
  · rintro ⟨item, member, same⟩
    obtain ⟨k, listed, rfl⟩ := List.mem_map.mp member
    obtain ⟨bounded, isSet⟩ := List.mem_filter.mp listed
    have below : k < bitmapMax := List.mem_range.mp bounded
    have equal : k = i := by
      unfold bitmapMax at below
      simp only [unsignedInt, Int.ofNat_eq_natCast] at same
      omega
    exact equal ▸ isSet
  · intro isSet
    refine ⟨Int.ofNat i, List.mem_map_of_mem (List.mem_filter.mpr ⟨List.mem_range.mpr inside, isSet⟩), ?_⟩
    simp only [unsignedInt, Int.ofNat_eq_natCast]
    omega

/-- The bytes of a word in memory, the lowest first. -/
def wordBytes (word : BitVec 64) : List (BitVec 8) :=
  (List.range 8).map fun k => (word >>> (8 * k)).setWidth 8

def bytes (map : Bitmap) : List (BitVec 8) := map.mask.toList.flatMap wordBytes

/-- `memcmp`: the sign of the first difference between unsigned bytes. -/
def memcmp : List (BitVec 8) → List (BitVec 8) → Int
  | one :: ones, two :: twos => if one = two then memcmp ones twos else (one.toNat : Int) - two.toNat
  | _, _ => 0

/-- `nrm_bitmap_cmp` -/
def cmp (one two : Bitmap) : Int := memcmp one.bytes two.bytes

theorem memcmp_eq_zero_iff {ones twos : List (BitVec 8)} (length : ones.length = twos.length) :
    memcmp ones twos = 0 ↔ ones = twos := by
  induction ones generalizing twos with
  | nil => simp [memcmp, List.eq_nil_of_length_eq_zero length.symm]
  | cons one ones ih =>
      cases twos with
      | nil => cases length
      | cons two twos =>
          simp only [memcmp, List.cons.injEq]
          by_cases same : one = two
          · simp [same, ih (Nat.succ.inj length)]
          · have apart : one.toNat ≠ two.toNat := fun equal => same (BitVec.eq_of_toNat_eq equal)
            simp only [same, ↓reduceIte, false_and, iff_false]
            omega

theorem wordBytes_injective {one two : BitVec 64} (same : wordBytes one = wordBytes two) :
    one = two := by
  apply BitVec.eq_of_getLsbD_eq
  intro i small
  have entry := congrArg (fun bytes => (bytes[i / 8]?).map fun byte => byte.getLsbD (i % 8)) same
  have row : i / 8 < 8 := by omega
  have column : i % 8 < 8 := by omega
  have whole : 8 * (i / 8) + i % 8 = i := by omega
  simpa [wordBytes, row, column, whole] using entry

theorem flatMap_wordBytes_injective {ones twos : List (BitVec 64)}
    (length : ones.length = twos.length)
    (same : ones.flatMap wordBytes = twos.flatMap wordBytes) : ones = twos := by
  induction ones generalizing twos with
  | nil => exact (List.eq_nil_of_length_eq_zero length.symm).symm
  | cons one ones ih =>
      cases twos with
      | nil => cases length
      | cons two twos =>
          simp only [List.flatMap_cons] at same
          obtain ⟨heads, tails⟩ := List.append_inj same (by simp [wordBytes])
          rw [wordBytes_injective heads, ih (Nat.succ.inj length) tails]

theorem cmp_eq_zero_iff (one two : Bitmap) : one.cmp two = 0 ↔ one = two := by
  have length : one.bytes.length = two.bytes.length := by
    simp [bytes, List.length_flatMap, wordBytes]
  rw [cmp, memcmp_eq_zero_iff length]
  constructor
  · intro same
    have masks : one.mask.toList = two.mask.toList :=
      flatMap_wordBytes_injective (by simp) same
    obtain ⟨oneMask⟩ := one
    obtain ⟨twoMask⟩ := two
    congr 1
    exact Vector.toList_inj.mp masks
  · rintro rfl
    rfl

end Bitmap

end LibNrm
