import LibNrm.Utils.Bitmaps
import LibNrm.Data.Buffer
import LibNrm.Data.Ring
import LibNrm.Data.Run

namespace LibNrm

/-! `ringbuffer.c` over the macros of `utringbuffer.h`.  The capacity is a `size_t` where
it is checked and an `unsigned` where it is kept.  Pointers into the storage are
offsets in bytes; the pointers given to the functions are not NULL.
-/

/-- What a pointer to an element points to. -/
structure Element (sz : Nat) where
  bytes : List UInt8
  length : bytes.length = sz
deriving DecidableEq, Repr

/-- `UT_ringbuffer` for elements of `sz` bytes; `i` and `n` are unsigned integers of
32 bits. -/
structure UtRingbuffer (sz : Nat) where
  i : Nat
  n : Nat
  f : Bool
  d : Option (List UInt8)
deriving DecidableEq, Repr

namespace UtRingbuffer

variable {sz : Nat}

/-- `utringbuffer_init`; what is in the storage is unknown. -/
def init (garbage : Nat → UInt8) (size sz : Nat) : UtRingbuffer sz :=
  let n := size % 2 ^ 32
  { i := 0
    n := n
    f := false
    d := if n ≠ 0 then some ((List.range (n * sz % 2 ^ 64)).map garbage) else none }

/-- `utringbuffer_len` -/
def len (ring : UtRingbuffer sz) : Nat := if ring.f then ring.n else ring.i

/-- `utringbuffer_empty` -/
def empty (ring : UtRingbuffer sz) : Bool := ring.i == 0 && !ring.f

/-- `_utringbuffer_internalptr` -/
def internalptr (_ring : UtRingbuffer sz) (j : Nat) : Nat := sz * j % 2 ^ 64

/-- `_utringbuffer_real_idx` for an index of `w` bits. -/
def realIdx (w : Nat) (ring : UtRingbuffer sz) (j : Nat) : Nat :=
  if ring.f then (j + ring.i) % 2 ^ w % ring.n else j

/-- `utringbuffer_eltptr` for an index of `w` bits. -/
def eltptr (w : Nat) (ring : UtRingbuffer sz) (j : Nat) : Option Nat :=
  if j < ring.len then some (ring.internalptr (ring.realIdx w j)) else none

/-- `utringbuffer_back`; the index is an `unsigned`. -/
def back (ring : UtRingbuffer sz) : Option Nat :=
  if ring.empty then none else ring.eltptr 32 (unsignedInt ((ring.len : Int) - 1))

/-- `utringbuffer_push_back` without a destructor and a copy function. -/
def pushBack (ring : UtRingbuffer sz) (p : Element sz) : Exec (UtRingbuffer sz) := do
  let d ← deref ring.d
  match Data.splice d (ring.internalptr ring.i) p.bytes with
  | none => .error .danglingPointer
  | some d =>
      let i := (ring.i + 1) % 2 ^ 32
      if i = ring.n then pure { ring with i := 0, f := true, d := some d }
      else pure { ring with i := i, d := some d }

/-- `utringbuffer_clear` without a destructor. -/
def clear (ring : UtRingbuffer sz) : UtRingbuffer sz := { ring with i := 0, f := false }

/-- The element a pointer into the storage points to. -/
def load (ring : UtRingbuffer sz) (ptr : Nat) : Exec (List UInt8) := do
  let d ← deref ring.d
  if ptr + sz ≤ d.length then pure (Data.extract d ptr sz) else .error .danglingPointer

end UtRingbuffer

variable {sz : Nat}

/-- `nrm_ringbuffer_create` when memory can be allocated. -/
def ringbufferCreate (garbage : Nat → UInt8) (size elementSize : Nat) :
    Int × Option (UtRingbuffer elementSize) :=
  if elementSize = 0 ∨ size = 0 then (-nrmEinval, none)
  else (nrmSuccess, some (.init garbage size elementSize))

/-- `nrm_ringbuffer_length` -/
def ringbufferLength (ring : UtRingbuffer sz) : Nat := ring.len

/-- `nrm_ringbuffer_get`: the return code and `*out`. -/
def ringbufferGet (ring : UtRingbuffer sz) (index : Nat) : Int × Option Nat :=
  match ring.eltptr 64 index with
  | none => (-nrmEdom, none)
  | some out => (nrmSuccess, some out)

/-- `nrm_ringbuffer_back`: the return code and `*out`. -/
def ringbufferBack (ring : UtRingbuffer sz) : Int × Option Nat :=
  match ring.back with
  | none => (-nrmEdom, none)
  | some out => (nrmSuccess, some out)

/-- `nrm_ringbuffer_isempty` -/
def ringbufferIsempty (ring : UtRingbuffer sz) : Int := if ring.empty then 1 else 0

/-- `nrm_ringbuffer_isfull` -/
def ringbufferIsfull (ring : UtRingbuffer sz) : Int := if ring.f then 1 else 0

inductive RingOp (sz : Nat) where
  | pushBack (element : Element sz)
  | clear

/-- `nrm_ringbuffer_push_back` and `nrm_ringbuffer_clear` -/
def ringbufferStep (ring : UtRingbuffer sz) : RingOp sz → Exec (UtRingbuffer sz)
  | .pushBack element => ring.pushBack element
  | .clear => pure ring.clear

def pushed : List (RingOp sz) → List (List UInt8) :=
  List.foldl (fun sofar op => match op with
    | .pushBack element => sofar ++ [element.bytes]
    | .clear => []) []

/-- The ring buffer has the last `size` elements, and says so. -/
structure KeepsLast (size : Nat) (ring : UtRingbuffer sz) (elements : List (List UInt8)) : Prop where
  length : ringbufferLength ring = min elements.length size
  get_iff : ∀ index < 2 ^ 64, (ringbufferGet ring index).1 = 0 ↔ index < ringbufferLength ring
  get : ∀ index element, (Data.recent size elements)[index]? = some element →
    ∃ out, ringbufferGet ring index = (0, some out) ∧ ring.load out = .ok element
  back_iff : (ringbufferBack ring).1 ≠ 0 ↔ elements.length = 0
  back : ∀ element, elements.getLast? = some element →
    ∃ out, ringbufferBack ring = (0, some out) ∧ ring.load out = .ok element
  empty : ringbufferIsempty ring ≠ 0 ↔ elements.length = 0
  full : ringbufferIsfull ring ≠ 0 ↔ size ≤ elements.length

/-- A ring buffer of this shape does so in every run. -/
def RingKeepsLast (size elementSize : Nat) : Prop :=
  ∀ garbage (ops : List (RingOp elementSize)), ∃ ring final,
    ringbufferCreate garbage size elementSize = (0, some ring) ∧
    Data.run ringbufferStep ring ops = .ok final ∧ KeepsLast size final (pushed ops)

theorem pushed_snoc (ops : List (RingOp sz)) (op : RingOp sz) :
    pushed (ops ++ [op]) = match op with
      | .pushBack element => pushed ops ++ [element.bytes]
      | .clear => [] := by
  rw [pushed, List.foldl_append]
  rfl

namespace UtRingbuffer

def slot (ring : UtRingbuffer sz) (k : Nat) : Option (List UInt8) := (ring.load (sz * k)).toOption

theorem load_of_slot {ring : UtRingbuffer sz} {k : Nat} {bytes : List UInt8}
    (held : ring.slot k = some bytes) : ring.load (sz * k) = .ok bytes := by
  unfold slot at held
  cases read : ring.load (sz * k) with
  | error fault =>
      rw [read] at held
      cases held
  | ok value =>
      rw [read] at held
      cases held
      rfl

theorem slot_of_stored {ring : UtRingbuffer sz} {d : List UInt8} {k : Nat}
    (stored : ring.d = some d) (inside : sz * k + sz ≤ d.length) :
    ring.slot k = some (Data.extract d (sz * k) sz) := by
  simp only [slot, load, stored, deref_some, Exec.ok_bind, if_pos inside]
  rfl

/-- A ring buffer whose storage is as large as its capacity, with the elements of a
sequence in its slots. -/
structure Holds (size : Nat) (ring : UtRingbuffer sz) (elements : List (List UInt8)) : Prop where
  capacity : ring.n = size
  index : ring.i = elements.length % size
  flag : ring.f = decide (size ≤ elements.length)
  storage : ∃ d, ring.d = some d ∧ d.length = sz * size
  slots : Data.Cycles ring.slot size elements

section Storage

variable {size : Nat} {ring : UtRingbuffer sz} {elements : List (List UInt8)}

theorem slot_end_le (sz : Nat) {k size : Nat} (inside : k < size) : sz * k + sz ≤ sz * size := by
  calc sz * k + sz = sz * (k + 1) := (Nat.mul_succ sz k).symm
    _ ≤ sz * size := Nat.mul_le_mul_left sz inside

theorem slots_apart (sz : Nat) {k i : Nat} (different : k ≠ i) :
    sz * k + sz ≤ sz * i ∨ sz * i + sz ≤ sz * k := by
  rcases Nat.lt_or_gt_of_ne different with below | above
  · exact .inl (slot_end_le sz below)
  · exact .inr (slot_end_le sz above)

/-- Where no product wraps, a slot is where its number says. -/
theorem internalptr_eq (ring : UtRingbuffer sz) {k : Nat} (positive : 0 < sz)
    (fits : sz * size < 2 ^ 64) (inside : k < size) : ring.internalptr k = sz * k := by
  have bounded := slot_end_le sz inside
  rw [internalptr, Nat.mod_eq_of_lt (by omega)]

theorem slot_splice (ring : UtRingbuffer sz) {d written : List UInt8} {i k : Nat} {bytes : List UInt8} (size : Nat)
    (stored : ring.d = some d) (length : d.length = sz * size) (element : bytes.length = sz)
    (splice : Data.splice d (sz * i) bytes = some written) (inside : k < size)
    (next : UtRingbuffer sz) (held : next.d = some written) :
    next.slot k = if k = i then some bytes else ring.slot k := by
  have kept := Data.splice_length splice
  have bounded := slot_end_le sz inside
  have here := slot_of_stored held (show sz * k + sz ≤ written.length by omega)
  have before := slot_of_stored stored (show sz * k + sz ≤ d.length by omega)
  split
  · rename_i same
    have read := Data.extract_splice_self splice
    rw [element] at read
    rw [here, same, read]
  · rename_i different
    rw [here, before, Data.extract_splice_other splice (by
      rw [element]
      exact slots_apart sz different)]

end Storage

section Steps

variable {size : Nat} {ring : UtRingbuffer sz} {elements : List (List UInt8)}

theorem holds_init (garbage : Nat → UInt8) (positive : 0 < size) (small : size < 2 ^ 32)
    (fits : sz * size < 2 ^ 64) : Holds size (init garbage size sz) [] := by
  have capacity : size % 2 ^ 32 = size := Nat.mod_eq_of_lt small
  constructor
  case capacity => exact capacity
  case index => exact (Nat.zero_mod size).symm
  case flag => exact (decide_eq_false (Nat.not_le_of_lt positive)).symm
  case storage =>
    refine ⟨(List.range (size * sz % 2 ^ 64)).map garbage, ?_, ?_⟩
    · simp only [init, capacity]
      rw [if_pos (Nat.ne_of_gt positive)]
    · rw [List.length_map, List.length_range, Nat.mul_comm, Nat.mod_eq_of_lt fits]
  case slots => exact Data.Cycles.nil _ _

theorem Holds.clear (holds : Holds size ring elements) (positive : 0 < size) :
    Holds size ring.clear [] where
  capacity := holds.capacity
  index := (Nat.zero_mod size).symm
  flag := (decide_eq_false (Nat.not_le_of_lt positive)).symm
  storage := holds.storage
  slots := Data.Cycles.nil _ _

theorem Holds.push (holds : Holds size ring elements) (nonempty : 0 < sz) (positive : 0 < size)
    (small : size < 2 ^ 32) (fits : sz * size < 2 ^ 64) (element : Element sz) :
    ∃ next, ring.pushBack element = .ok next ∧ Holds size next (elements ++ [element.bytes]) := by
  obtain ⟨d, stored, length⟩ := holds.storage
  have inside : elements.length % size < size := Nat.mod_lt _ positive
  have bounded := slot_end_le sz inside
  have position : ring.internalptr ring.i = sz * (elements.length % size) := by
    rw [holds.index, internalptr_eq ring nonempty fits inside]
  obtain ⟨written, splice⟩ : ∃ written,
      Data.splice d (sz * (elements.length % size)) element.bytes = some written := by
    rw [Data.splice, if_pos (by rw [element.length]; omega)]
    exact ⟨_, rfl⟩
  have storage := (Data.splice_length splice).trans length
  -- the slots do not depend on the two indices
  have slots (next : UtRingbuffer sz) (held : next.d = some written) :
      Data.Cycles next.slot size (elements ++ [element.bytes]) := by
    have changed {k : Nat} (below : k < size) :=
      slot_splice ring size stored length element.length splice below next held
    apply holds.slots.push
    · rw [changed inside, if_pos rfl]
    · intro k below different
      rw [changed below, if_neg different]
  have counted : (ring.i + 1) % 2 ^ 32 = elements.length % size + 1 := by
    rw [holds.index, Nat.mod_eq_of_lt (by omega)]
  have pushed : ring.pushBack element =
      if elements.length % size + 1 = size then .ok ⟨0, ring.n, true, some written⟩
      else .ok ⟨elements.length % size + 1, ring.n, ring.f, some written⟩ := by
    simp only [pushBack, stored, deref_some, Exec.ok_bind, position, splice, counted, holds.capacity]
    rfl
  rw [pushed]
  by_cases last : elements.length % size + 1 = size
  · rw [if_pos last]
    refine ⟨_, rfl, holds.capacity, ?_, ?_, ⟨written, rfl, storage⟩, slots _ rfl⟩
    · rw [List.length_append, List.length_singleton, Data.succ_mod_of_last last]
    · rw [List.length_append, List.length_singleton,
        decide_eq_true (Data.le_succ_iff_of_last last)]
  · rw [if_neg last]
    refine ⟨_, rfl, holds.capacity, ?_, ?_, ⟨written, rfl, storage⟩, slots _ rfl⟩
    · rw [List.length_append, List.length_singleton, Data.succ_mod_of_not_last positive last]
    · rw [List.length_append, List.length_singleton]
      exact holds.flag.trans (decide_eq_decide.mpr (Data.le_succ_iff_of_not_last last).symm)

theorem run_holds (garbage : Nat → UInt8) (nonempty : 0 < sz) (positive : 0 < size)
    (small : size < 2 ^ 32) (fits : sz * size < 2 ^ 64) (ops : List (RingOp sz)) :
    ∃ final, Data.run ringbufferStep (init garbage size sz) ops = .ok final ∧
      Holds size final (pushed ops) := by
  induction ops using List.reverseRecOn with
  | nil => exact ⟨_, rfl, holds_init garbage positive small fits⟩
  | append_singleton ops op ih =>
      obtain ⟨middle, ran, holds⟩ := ih
      rw [Data.run_snoc op ran, pushed_snoc]
      cases op with
      | pushBack element => exact holds.push nonempty positive small fits element
      | clear => exact ⟨_, rfl, holds.clear positive⟩

end Steps

section Reading

variable {size : Nat} {ring : UtRingbuffer sz} {elements : List (List UInt8)}

theorem Holds.len (holds : Holds size ring elements) : ring.len = min elements.length size := by
  rw [UtRingbuffer.len, holds.flag, holds.capacity, holds.index]
  by_cases full : size ≤ elements.length
  · simp [full]
  · have part : elements.length < size := by omega
    simp [full, Nat.mod_eq_of_lt part, Nat.min_eq_left (Nat.le_of_lt part)]

/-- Where the sum does not wrap, an index is translated to the slot of its number. -/
theorem Holds.realIdx (holds : Holds size ring elements) {w index : Nat}
    (inside : index < min elements.length size) (fits : index + elements.length % size < 2 ^ w) :
    ring.realIdx w index = (index + (elements.length - size)) % size := by
  rw [UtRingbuffer.realIdx, holds.flag, holds.capacity, holds.index]
  by_cases full : size ≤ elements.length
  · rw [decide_eq_true full, if_pos rfl, Nat.mod_eq_of_lt fits, Nat.add_mod_mod]
    have whole : index + elements.length = index + (elements.length - size) + size := by omega
    rw [whole, Nat.add_mod_right]
  · rw [decide_eq_false full, if_neg (by simp), Nat.sub_eq_zero_of_le (by omega), Nat.add_zero,
      Nat.mod_eq_of_lt (by omega)]

theorem Holds.eltptr (holds : Holds size ring elements) (nonempty : 0 < sz)
    (fits : sz * size < 2 ^ 64) {w index : Nat} {element : List UInt8}
    (element_at : (Data.recent size elements)[index]? = some element)
    (sum : index + elements.length % size < 2 ^ w) :
    ∃ out, ring.eltptr w index = some out ∧ ring.load out = .ok element := by
  have inside : index < min elements.length size := by
    have bound := (List.getElem?_eq_some_iff.mp element_at).1
    rwa [Data.recent_length] at bound
  have slot := holds.slots.read element_at
  have below : (index + (elements.length - size)) % size < size := Nat.mod_lt _ (by omega)
  refine ⟨sz * ((index + (elements.length - size)) % size), ?_, load_of_slot slot⟩
  rw [UtRingbuffer.eltptr, if_pos (holds.len ▸ inside), holds.realIdx inside sum,
    internalptr_eq ring nonempty fits below]

theorem Holds.empty (holds : Holds size ring elements) (positive : 0 < size) :
    ring.empty = true ↔ elements.length = 0 := by
  rw [UtRingbuffer.empty, holds.flag, holds.index, Bool.and_eq_true, beq_iff_eq,
    Bool.not_eq_true', decide_eq_false_iff_not]
  constructor
  · intro condition
    obtain ⟨slot, part⟩ := condition
    rwa [Nat.mod_eq_of_lt (by omega)] at slot
  · intro none
    rw [none]
    exact ⟨Nat.zero_mod size, by omega⟩

theorem recent_getLast {element : List UInt8} (positive : 0 < size)
    (last : elements.getLast? = some element) :
    (Data.recent size elements)[min elements.length size - 1]? = some element := by
  have nonempty : elements ≠ [] := by
    intro empty
    subst empty
    cases last
  have some := List.length_pos_iff.mpr nonempty
  rw [List.getLast?_eq_getElem?] at last
  rw [Data.recent, List.getElem?_drop, ← last]
  congr 1
  omega

theorem Holds.back_eq (holds : Holds size ring elements) (small : size < 2 ^ 32)
    (nonempty : ring.empty = false) (some : 0 < min elements.length size) :
    ring.back = ring.eltptr 32 (min elements.length size - 1) := by
  rw [UtRingbuffer.back, if_neg (by rw [nonempty]; decide), holds.len]
  have index : unsignedInt ((min elements.length size : Nat) - 1 : Int) =
      min elements.length size - 1 := by
    unfold unsignedInt
    omega
  rw [index]

/-- Up to a capacity of `2 ^ 31` every index has its sum with `i` in 32 bits. -/
theorem Holds.keepsLast (holds : Holds size ring elements) (nonempty : 0 < sz) (positive : 0 < size)
    (fits : sz * size < 2 ^ 64) (half : size ≤ 2 ^ 31) : KeepsLast size ring elements := by
  have slot : elements.length % size < size := Nat.mod_lt _ positive
  have emptyIff := holds.empty positive
  constructor
  case length => exact holds.len
  case get_iff =>
    intro index _
    rw [ringbufferGet, ringbufferLength, UtRingbuffer.eltptr]
    by_cases inside : index < ring.len <;> simp [inside, nrmSuccess, nrmEdom]
  case get =>
    intro index element element_at
    have bound := (List.getElem?_eq_some_iff.mp element_at).1
    rw [Data.recent_length] at bound
    obtain ⟨out, found, read⟩ := holds.eltptr (w := 64) nonempty fits element_at (by omega)
    exact ⟨out, by rw [ringbufferGet, found]; rfl, read⟩
  case back_iff =>
    by_cases none : elements.length = 0
    · simp [ringbufferBack, UtRingbuffer.back, emptyIff.mpr none, none, nrmEdom]
    · have some : ring.empty = false := by
        rw [← Bool.not_eq_true, emptyIff]
        exact none
      have back := holds.back_eq (by omega) some (by omega)
      rw [UtRingbuffer.eltptr, if_pos (by rw [holds.len]; omega)] at back
      simp [ringbufferBack, back, none, nrmSuccess]
  case back =>
    intro element last
    have element_at := recent_getLast positive last
    have bound := (List.getElem?_eq_some_iff.mp element_at).1
    rw [Data.recent_length] at bound
    have some : ring.empty = false := by
      rw [← Bool.not_eq_true, emptyIff]
      omega
    obtain ⟨out, found, read⟩ := holds.eltptr (w := 32) nonempty fits element_at (by omega)
    refine ⟨out, ?_, read⟩
    rw [ringbufferBack, holds.back_eq (by omega) some (by omega), found]
    rfl
  case empty =>
    rw [ringbufferIsempty, ← emptyIff]
    cases ring.empty <;> simp
  case full =>
    rw [ringbufferIsfull, holds.flag]
    by_cases full : size ≤ elements.length <;> simp [full]

end Reading

def pushes (elements : List (Element sz)) : List (RingOp sz) := elements.map .pushBack

theorem pushed_pushes (elements : List (Element sz)) :
    pushed (pushes elements) = elements.map Element.bytes := by
  induction elements using List.reverseRecOn with
  | nil => rfl
  | append_singleton elements element ih =>
      rw [pushes, List.map_append, List.map_singleton, pushed_snoc, List.map_append,
        List.map_singleton]
      exact congrArg (· ++ [element.bytes]) ih

/-- While the storage is filled for the first time the index counts the pushes, every
element lies inside, and the flag is raised by the last one. -/
structure Fills (n bytes k : Nat) (ring : UtRingbuffer sz) : Prop where
  capacity : ring.n = n
  storage : ∀ d, ring.d = some d → d.length = bytes
  inside : sz * k ≤ bytes
  index : k < n → ring.i = k ∧ ring.f = false
  flag : k = n → 0 < k → ring.f = true

theorem Fills.push {n bytes k : Nat} {ring next : UtRingbuffer sz} {element : Element sz}
    (fills : Fills n bytes k ring) (wide : n < 2 ^ 32) (small : bytes < 2 ^ 64) (below : k < n)
    (pushed : ring.pushBack element = .ok next) : Fills n bytes (k + 1) next := by
  obtain ⟨index, flag⟩ := fills.index below
  have inside := fills.inside
  obtain ⟨d, stored, rest⟩ := Exec.bind_eq_ok.mp pushed
  have length := fills.storage d (deref_eq_ok.mp stored)
  have position : ring.internalptr ring.i = sz * k := by
    rw [internalptr, index, Nat.mod_eq_of_lt (by omega)]
  have counted : (ring.i + 1) % 2 ^ 32 = k + 1 := by
    rw [index, Nat.mod_eq_of_lt (by omega)]
  rw [position, counted, fills.capacity] at rest
  cases splice : Data.splice d (sz * k) element.bytes with
  | none =>
      rw [splice] at rest
      cases rest
  | some written =>
      have bounded := (Data.splice_eq_some splice).1
      rw [element.length, length] at bounded
      have kept := (Data.splice_length splice).trans length
      rw [splice] at rest
      have room : sz * (k + 1) ≤ bytes := by
        rw [Nat.mul_succ]
        exact bounded
      have storage : ∀ other, some written = some other → other.length = bytes := by
        rintro other ⟨⟩
        exact kept
      by_cases last : k + 1 = n
      · simp only [last, ↓reduceIte] at rest
        cases rest
        exact ⟨rfl, storage, room, fun _ => by omega, fun _ _ => rfl⟩
      · simp only [last, ↓reduceIte] at rest
        cases rest
        exact ⟨rfl, storage, room, fun _ => ⟨rfl, flag⟩, fun _ => by omega⟩

theorem run_fills (garbage : Nat → UInt8) {size : Nat} (element : Element sz) {k : Nat}
    {final : UtRingbuffer sz} (below : k ≤ size % 2 ^ 32)
    (ran : Data.run ringbufferStep (init garbage size sz) (pushes (List.replicate k element)) =
      .ok final) : Fills (size % 2 ^ 32) (size % 2 ^ 32 * sz % 2 ^ 64) k final := by
  have wide : size % 2 ^ 32 < 2 ^ 32 := Nat.mod_lt _ (by decide)
  have small : size % 2 ^ 32 * sz % 2 ^ 64 < 2 ^ 64 := Nat.mod_lt _ (by decide)
  induction k generalizing final with
  | zero =>
      cases ran
      refine ⟨rfl, ?_, Nat.zero_le _, fun _ => ⟨rfl, rfl⟩, fun _ => by omega⟩
      intro d stored
      simp only [init] at stored
      split at stored
      · cases stored
        rw [List.length_map, List.length_range]
      · cases stored
  | succ k ih =>
      rw [List.replicate_succ', pushes, List.map_append, List.map_singleton] at ran
      cases reached : Data.run ringbufferStep (init garbage size sz)
          ((List.replicate k element).map .pushBack) with
      | error fault =>
          rw [Data.run_append, reached] at ran
          cases ran
      | ok middle =>
          rw [Data.run_snoc _ reached] at ran
          exact (ih (by omega) reached).push wide small (by omega) ran

def same (sz : Nat) (byte : UInt8) : Element sz := ⟨List.replicate sz byte, List.length_replicate⟩

theorem keeps_run {size : Nat} (keeps : RingKeepsLast size sz) (ops : List (RingOp sz)) :
    ∃ final, Data.run ringbufferStep (init (fun _ => 0) size sz) ops = .ok final ∧
      KeepsLast size final (pushed ops) := by
  obtain ⟨ring, final, created, ran, kept⟩ := keeps (fun _ => 0) ops
  unfold ringbufferCreate at created
  split at created
  · cases created
  · cases created
    exact ⟨final, ran, kept⟩

/-- A capacity that does not fit is cut, and the ring buffer is full too early or has no
storage. -/
theorem capacity_fits {size : Nat} (keeps : RingKeepsLast size sz) : size < 2 ^ 32 := by
  by_contra large
  have wide : size % 2 ^ 32 < 2 ^ 32 := Nat.mod_lt _ (by decide)
  by_cases cut : size % 2 ^ 32 = 0
  · obtain ⟨final, ran, -⟩ := keeps_run keeps [.pushBack (same sz 0)]
    have missing : (init (fun _ => 0) size sz).d = none := by
      simp only [init]
      rw [if_neg (by omega)]
    simp [Data.run, ringbufferStep, pushBack, missing] at ran
  · obtain ⟨final, ran, kept⟩ :=
      keeps_run keeps (pushes (List.replicate (size % 2 ^ 32) (same sz 0)))
    have fills := run_fills (fun _ => 0) (same sz 0) (Nat.le_refl _) ran
    have flag := fills.flag rfl (by omega)
    have early := kept.full.mp (by simp [ringbufferIsfull, flag])
    rw [pushed_pushes, List.length_map, List.length_replicate] at early
    omega

/-- If the size of the storage wraps, the elements that have been pushed when the ring
buffer should be full do not fit into it. -/
theorem storage_fits {size : Nat} (keeps : RingKeepsLast size sz) : sz * size < 2 ^ 64 := by
  have capacity : size % 2 ^ 32 = size := Nat.mod_eq_of_lt (capacity_fits keeps)
  obtain ⟨final, ran, -⟩ := keeps_run keeps (pushes (List.replicate size (same sz 0)))
  have fills := run_fills (fun _ => 0) (same sz 0) capacity.ge ran
  have inside := fills.inside
  have wrapped : size % 2 ^ 32 * sz % 2 ^ 64 < 2 ^ 64 := Nat.mod_lt _ (by decide)
  omega

/-- In a ring buffer of more than `2 ^ 31` elements the index of the last one wraps when
the slot before the last is written the second time. -/
theorem Holds.back_wraps {size : Nat} {ring : UtRingbuffer sz} {elements : List (List UInt8)}
    (holds : Holds size ring elements) (nonempty : 0 < sz) (large : 2 ^ 31 < size)
    (small : size < 2 ^ 32) (fits : sz * size < 2 ^ 64) (count : elements.length = 2 * size - 1) :
    ring.back = some (sz * (2 * size - 2 - 2 ^ 32)) := by
  have index : elements.length % size = size - 1 := by
    rw [count, show 2 * size - 1 = size - 1 + size by omega, Nat.add_mod_right,
      Nat.mod_eq_of_lt (by omega)]
  have filled : ring.empty = false := by
    rw [← Bool.not_eq_true, holds.empty (by omega)]
    omega
  have sum : (min (2 * size - 1) size - 1 + (size - 1)) % 2 ^ 32 % size = 2 * size - 2 - 2 ^ 32 := by
    have once : (size - 1 + (size - 1)) % 2 ^ 32 = 2 * size - 2 - 2 ^ 32 := by omega
    rw [Nat.min_eq_right (by omega), once, Nat.mod_eq_of_lt (by omega)]
  rw [holds.back_eq small filled (by omega), UtRingbuffer.eltptr, if_pos (by rw [holds.len]; omega),
    UtRingbuffer.realIdx, holds.flag, decide_eq_true (by omega), if_pos rfl, holds.index,
    holds.capacity, index, count, sum, internalptr_eq ring nonempty fits (by omega)]

theorem capacity_half {size : Nat} (nonempty : 0 < sz) (keeps : RingKeepsLast size sz) :
    size ≤ 2 ^ 31 := by
  by_contra large
  have small := capacity_fits keeps
  have fits := storage_fits keeps
  obtain ⟨elements, shape⟩ : ∃ elements,
      elements = List.replicate (2 * size - 2) (same sz 0) ++ [same sz 1] := ⟨_, rfl⟩
  have count : (elements.map Element.bytes).length = 2 * size - 1 := by
    rw [List.length_map, shape, List.length_append, List.length_replicate, List.length_singleton]
    omega
  obtain ⟨final, ran, kept⟩ := keeps_run keeps (pushes elements)
  obtain ⟨other, ranAgain, holds⟩ :=
    run_holds (fun _ => 0) nonempty (by omega) small fits (pushes elements)
  cases ran.symm.trans ranAgain
  rw [pushed_pushes] at kept holds
  have wrapped := holds.back_wraps nonempty (by omega) small fits count
  have stale : final.slot (2 * size - 2 - 2 ^ 32) = some (same sz 0).bytes := by
    have read := holds.slots (size + (2 * size - 2 - 2 ^ 32)) (same sz 0).bytes (by
      rw [List.getElem?_map, shape, List.getElem?_append_left (by rw [List.length_replicate]; omega),
        List.getElem?_replicate_of_lt (by omega), Option.map_some]) (by omega)
    rwa [Nat.add_mod_left, Nat.mod_eq_of_lt (by omega)] at read
  obtain ⟨out, found, read⟩ := kept.back (same sz 1).bytes (by
    rw [shape, List.map_append, List.map_singleton, List.getLast?_concat])
  have pointer : some (sz * (2 * size - 2 - 2 ^ 32)) = some out := by
    have both := congrArg Prod.snd found
    rwa [ringbufferBack, wrapped] at both
  rw [← Option.some.inj pointer] at read
  have equal := (load_of_slot stale).symm.trans read
  simp [same, Nat.ne_of_gt nonempty] at equal

end UtRingbuffer

/-- A ring buffer that `nrm_ringbuffer_create` accepts keeps the last `size` elements in
every run exactly if its capacity is at most `2 ^ 31` and its storage has less than
`2 ^ 64` bytes. -/
theorem ring_keeps_last_iff (size elementSize : Nat) (garbage : Nat → UInt8)
    (accepted : (ringbufferCreate garbage size elementSize).1 = 0) :
    RingKeepsLast size elementSize ↔ size ≤ 2 ^ 31 ∧ elementSize * size < 2 ^ 64 := by
  have shape : ¬ (elementSize = 0 ∨ size = 0) := by
    intro refused
    rw [ringbufferCreate, if_pos refused] at accepted
    cases accepted
  constructor
  · intro keeps
    exact ⟨UtRingbuffer.capacity_half (by omega) keeps, UtRingbuffer.storage_fits keeps⟩
  · intro condition garbage ops
    obtain ⟨half, fits⟩ := condition
    obtain ⟨final, ran, holds⟩ :=
      UtRingbuffer.run_holds garbage (show 0 < elementSize by omega) (by omega) (by omega) fits ops
    refine ⟨.init garbage size elementSize, final, ?_, ran,
      holds.keepsLast (by omega) (by omega) fits half⟩
    rw [ringbufferCreate, if_neg shape]
    rfl

theorem ring_keeps_last_five : (ringbufferCreate (fun _ => 0) 5 8).1 = 0 ∧ RingKeepsLast 5 8 :=
  ⟨rfl, (ring_keeps_last_iff 5 8 (fun _ => 0) rfl).mpr (by decide)⟩

/-- A capacity of `2 ^ 32 + 1` is kept as one: a single element fills the ring buffer. -/
theorem large_capacity_cut :
    (ringbufferCreate (fun _ => 0) (2 ^ 32 + 1) 1).1 = 0 ∧ ¬ RingKeepsLast (2 ^ 32 + 1) 1 := by
  refine ⟨rfl, ?_⟩
  intro keeps
  obtain ⟨final, ran, kept⟩ := UtRingbuffer.keeps_run keeps [.pushBack ⟨[7], rfl⟩]
  have computed : Data.run ringbufferStep (.init (fun _ => 0) (2 ^ 32 + 1) 1)
      [.pushBack ⟨[7], rfl⟩] = .ok ⟨0, 1, true, some [7]⟩ := by decide
  cases ran.symm.trans computed
  have full := kept.full.mp (by decide)
  revert full
  decide

end LibNrm
