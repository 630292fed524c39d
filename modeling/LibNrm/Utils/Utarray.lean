import LibNrm.Utils.Ringbuffer

namespace LibNrm

/-! `vectors.c` over the macros of `utarray.h`, byte by byte.  The elements have no
constructor, copy or destructor functions.  A pointer into the block is an offset.
-/

/-- What the C library answers to requests for memory, and what new memory holds. -/
structure Allocator where
  granted : Nat → Bool
  garbage : Nat → UInt8

/-- `UT_array` for elements of `sz` bytes; `i` and `n` are unsigned integers of 32 bits. -/
structure UtArray (sz : Nat) where
  i : Nat
  n : Nat
  d : List UInt8
deriving DecidableEq, Repr

namespace UtArray

variable {sz : Nat}

/-- `_utarray_eltptr` -/
def eltptr (sz j : Nat) : Nat := sz * j % 2 ^ 64

/-- `utarray_eltidx` -/
def eltidx (sz e : Nat) : Nat := e / sz

/-- The loop of `utarray_reserve`.  In 32 bits the number of slots runs through at most
61 values before it repeats, so a loop that is not over by then never is. -/
def grow (need : Nat) : Nat → Nat → Option Nat
  | 0, _ => none
  | turns + 1, n =>
      if n < need then grow need turns (if n ≠ 0 then 2 * n % 2 ^ 32 else 8) else some n

def realloc (alloc : Allocator) (d : List UInt8) (size : Nat) : List UInt8 :=
  d.take size ++ (List.range (size - d.length)).map alloc.garbage

/-- `utarray_reserve`, with false for `utarray_oom`: `n` has changed by then. -/
def reserve (alloc : Allocator) (a : UtArray sz) (need : Nat) : Proc (Bool × UtArray sz) :=
  if a.n < need then
    match grow need 64 a.n with
    | none => .error .diverges
    | some n =>
        let size := n * sz % 2 ^ 64
        if alloc.granted size then .ok (true, { a with n := n, d := realloc alloc a.d size })
        else .ok (false, { a with n := n })
  else .ok (true, a)

/-- `memcpy`, `memmove` and `memset` into the block. -/
def store (a : UtArray sz) (offset : Nat) (bytes : List UInt8) : Proc (UtArray sz) :=
  match Data.splice a.d offset bytes with
  | some d => .ok { a with d := d }
  | none => .error (.fault .danglingPointer)

def load (a : UtArray sz) (offset count : Nat) : Proc (List UInt8) :=
  if offset + count ≤ a.d.length then .ok (Data.extract a.d offset count)
  else .error (.fault .danglingPointer)

end UtArray

open UtArray

section Functions

variable {sz : Nat}

/-- `nrm_vector_create`: the return code and `*vector`. -/
def vectorCreate (alloc : Allocator) (elementSize : Nat) : Int × Option (UtArray elementSize) :=
  if elementSize = 0 then (-nrmEinval, none)
  -- `struct nrm_vector_s` and `UT_array`
  else if !alloc.granted 40 ∨ !alloc.granted 48 then (-nrmEnomem, none)
  else (nrmSuccess, some ⟨0, 0, []⟩)

/-- `nrm_vector_length` -/
def vectorLength (vector : UtArray sz) : Nat := vector.i

/-- `nrm_vector_get`: the return code and `*out`. -/
def vectorGet (vector : UtArray sz) (index : Nat) : Int × Option Nat :=
  if index < vector.i then (nrmSuccess, some (eltptr sz index)) else (-nrmEdom, none)

/-- `nrm_vector_push_back` -/
def vectorPushBack (alloc : Allocator) (vector : UtArray sz) (element : Element sz) :
    Proc (Int × UtArray sz) := do
  let (reserved, vector) ← vector.reserve alloc ((vector.i + 1) % 2 ^ 32)
  if !reserved then pure (-nrmEnomem, vector)
  else
    let vector ← vector.store (eltptr sz vector.i) element.bytes
    pure (nrmSuccess, { vector with i := (vector.i + 1) % 2 ^ 32 })

/-- `nrm_vector_pop_back`: the return code, what is copied to `out`, and the vector. -/
def vectorPopBack (vector : UtArray sz) : Proc (Int × Option (List UInt8) × UtArray sz) := do
  if vector.i = 0 then pure (-nrmEdom, none, vector)
  else
    let out ← vector.load (eltptr sz (vector.i - 1)) sz
    pure (nrmSuccess, some out, { vector with i := vector.i - 1 })

/-- `utarray_erase` of one element. -/
def UtArray.erase (vector : UtArray sz) (position : Nat) : Proc (UtArray sz) := do
  let vector ← (if position + 1 < vector.i then do
      let behind ← vector.load (eltptr sz (position + 1))
        ((vector.i - (position + 1)) * sz % 2 ^ 64)
      vector.store (eltptr sz position) behind
    else pure vector : Proc (UtArray sz))
  pure { vector with i := vector.i - 1 }

/-- `nrm_vector_take`: the return code, what is copied to `out`, and the vector. -/
def vectorTake (vector : UtArray sz) (position : Nat) :
    Proc (Int × Option (List UInt8) × UtArray sz) := do
  if vector.i ≤ position then pure (-nrmEdom, none, vector)
  else
    let out ← vector.load (eltptr sz position) sz
    let vector ← vector.erase position
    pure (nrmSuccess, some out, vector)

/-- `nrm_vector_resize`; the new length is a `size_t`, compared as an `unsigned` and
then used in full. -/
def vectorResize (alloc : Allocator) (vector : UtArray sz) (newlen : Nat) :
    Proc (Int × UtArray sz) := do
  if vector.i < newlen % 2 ^ 32 then
    let (reserved, vector) ← vector.reserve alloc (vector.i + (newlen - vector.i))
    if !reserved then pure (-nrmEnomem, vector)
    else
      let vector ← vector.store (eltptr sz vector.i)
        (List.replicate (sz * (newlen - vector.i) % 2 ^ 64) 0)
      pure (nrmSuccess, { vector with i := newlen % 2 ^ 32 })
  else pure (nrmSuccess, { vector with i := newlen % 2 ^ 32 })

/-- `nrm_vector_clear` -/
def vectorClear (vector : UtArray sz) : UtArray sz := { vector with i := 0 }

/-- `nrm_vector_copy`: the return code and `*dst`. -/
def vectorCopy (alloc : Allocator) (src : UtArray sz) : Proc (Int × Option (UtArray sz)) := do
  match vectorCreate alloc sz with
  | (_, none) => pure ((vectorCreate alloc sz).1, none)
  | (_, some v) =>
      if src.i = 0 then pure (nrmSuccess, some v)
      else
        let (reserved, v) ← v.reserve alloc ((v.i + src.i) % 2 ^ 32)
        if !reserved then pure (-nrmEnomem, none)
        else
          let bytes ← src.load (eltptr sz 0) (src.i * sz % 2 ^ 64)
          let v ← v.store (eltptr sz v.i) bytes
          pure (nrmSuccess, some { v with i := (v.i + src.i) % 2 ^ 32 })

/-- `nrm_vector_iterator_begin` -/
def vectorIteratorBegin (vector : UtArray sz) : Option Nat :=
  if vector.i ≠ 0 then some (eltptr sz 0) else none

/-- `nrm_vector_iterator_next` -/
def vectorIteratorNext (vector : UtArray sz) (iterator : Nat) : Option Nat :=
  if vector.i ≠ eltidx sz iterator + 1 then some (eltptr sz (eltidx sz iterator + 1)) else none

/-- `nrm_vector_foreach`, with the element the iterator points to at each turn. -/
def vectorForeach (vector : UtArray sz) : Nat → Option Nat → Proc (List (List UInt8))
  | _, none => .ok []
  | 0, some _ => .error .diverges
  | turns + 1, some iterator => do
      let element ← vector.load iterator sz
      let rest ← vectorForeach vector turns (vectorIteratorNext vector iterator)
      pure (element :: rest)

end Functions

end LibNrm
