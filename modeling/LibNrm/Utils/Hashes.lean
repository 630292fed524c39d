import LibNrm.Data.Table
import LibNrm.Utils.Basic

namespace LibNrm

/-! uthash is taken as a correct hash map whose iteration follows insertion order,
so a table is its list of entries and the NULL table is the empty list.  Keys
are compared by length and bytes.  Adding an entry never looks for an earlier
one; that check is `nrm_hash_add`'s own.
-/

abbrev Hash (α : Type) := Data.Table NrmString α

/-- What the `void **` out-parameter of `nrm_hash_remove` can be left holding. -/
inductive Ptr (α : Type) where
  | null
  | object (value : α)
  /-- the hash element itself, after `free` -/
  | freedElement
deriving DecidableEq, Repr

def Ptr.deref : Ptr α → Exec α
  | .null => .error .nullDereference
  | .object value => .ok value
  | .freedElement => .error .danglingPointer

/-- The `count` bytes found from the address of a local variable onwards.  `frame` is
what is mapped from there on: the bytes of the variable, then the stack up to its end. -/
def readBytes (frame : List UInt8) (count : Nat) : Exec (List UInt8) :=
  if count ≤ frame.length then .ok (frame.take count) else .error .unmapped

namespace Hash

/-- `nrm_hash_add` -/
def add (table : Hash α) (uuid : NrmString) (ptr : α) : Int × Hash α :=
  match table.lookup uuid with
  | some _ => (-nrmFailure, table)
  | none => (nrmSuccess, table.append uuid ptr)

/-- `nrm_hash_find`; `none` leaves the out-parameter as it was. -/
def find (table : Hash α) (uuid : NrmString) : Int × Option α :=
  if table.entries = [] then (-nrmEinval, none)
  else
    match table.lookup uuid with
    | none => (-nrmEnotfound, none)
    | some ptr => (nrmSuccess, some ptr)

/-- `nrm_hash_remove`.  The key handed to `HASH_FIND` is `&uuid`, so the lookup
compares the bytes of the stack frame and not those of the string.  When it
finds an element, the out-parameter receives the element, which is then freed. -/
def remove (frame : List UInt8) (table : Hash α) (uuid : NrmString) (ptr : Ptr α) :
    Exec (Int × Hash α × Ptr α) :=
  if table.entries = [] then .ok (-nrmEinval, table, ptr)
  else do
    -- the hash function reads the whole key, whatever is in the table
    let key ← readBytes frame uuid.length
    match table.lookup key with
    | none => pure (nrmSuccess, table, .null)
    | some _ => pure (nrmSuccess, table.erase key, .freedElement)

/-- The lookup of a removal reads mapped memory only and finds no entry. -/
def Misses (frame : List UInt8) (table : Hash α) (uuid : NrmString) : Prop :=
  table.entries = [] ∨
    uuid.length ≤ frame.length ∧ table.lookup (frame.take uuid.length) = none

instance (frame : List UInt8) (table : Hash α) (uuid : NrmString) :
    Decidable (table.Misses frame uuid) :=
  decidable_of_iff (table.entries.isEmpty = true ∨ uuid.length ≤ frame.length ∧
    table.lookup (frame.take uuid.length) = none) (by rw [Misses, List.isEmpty_iff])

theorem find_snd (table : Hash α) (uuid : NrmString) :
    (table.find uuid).2 = table.lookup uuid := by
  unfold find
  split
  · rename_i empty
    have none : table.lookup uuid = none := by simp [Data.Table.lookup, empty]
    exact none.symm
  · cases table.lookup uuid <;> rfl

/-- The error code distinguishes exactly the three cases the event base asserts on. -/
theorem find_fst_of_nonempty {table : Hash α} (nonempty : table.entries ≠ []) (uuid : NrmString) :
    (table.find uuid).1 = match table.lookup uuid with
      | none => -nrmEnotfound
      | some _ => nrmSuccess := by
  simp only [find, nonempty, ↓reduceIte]
  cases table.lookup uuid <;> rfl

theorem add_of_absent {table : Hash α} {uuid : NrmString} (ptr : α)
    (absent : table.lookup uuid = none) :
    table.add uuid ptr = (nrmSuccess, table.append uuid ptr) := by
  simp only [add, absent]

theorem add_of_present {table : Hash α} {uuid : NrmString} {old : α} (ptr : α)
    (present : table.lookup uuid = some old) : table.add uuid ptr = (-nrmFailure, table) := by
  simp only [add, present]

/-- `nrm_hash_add` inserts like the abstract map does: at the end, unless the key is taken. -/
theorem add_refines_insertNew (map : Data.OrdMap NrmString α) (uuid : NrmString) (ptr : α) :
    (Hash.add map.toTable uuid ptr).2 = (map.insertNew uuid ptr).toTable := by
  cases found : map.lookup uuid with
  | none => simp [add, Data.OrdMap.insertNew, found]
  | some old => simp [add, Data.OrdMap.insertNew, found]

theorem add_all {property : NrmString → α → Prop} {table : Hash α} {uuid : NrmString} {ptr : α}
    (all : table.All property) (new : property uuid ptr) : (table.add uuid ptr).2.All property := by
  cases found : table.lookup uuid with
  | none =>
      rw [add_of_absent ptr found]
      exact all.append new
  | some old =>
      rw [add_of_present ptr found]
      exact all

/-- A removal finds nothing, or an entry whose element it frees, or the end of the stack. -/
theorem remove_cases (frame : List UInt8) (table : Hash α) (uuid : NrmString) :
    table.Misses frame uuid ∧ (∃ code, table.remove frame uuid .null = .ok (code, table, .null)) ∨
    ¬ table.Misses frame uuid ∧ (∃ code after,
      table.remove frame uuid .null = .ok (code, after, .freedElement)) ∨
    ¬ table.Misses frame uuid ∧ table.remove frame uuid .null = .error .unmapped := by
  by_cases empty : table.entries = []
  · exact .inl ⟨.inl empty, -nrmEinval, by simp only [remove, empty, ↓reduceIte]⟩
  by_cases mapped : uuid.length ≤ frame.length
  · have read : readBytes frame uuid.length = .ok (frame.take uuid.length) := by
      simp only [readBytes, mapped, ↓reduceIte]
    cases found : table.lookup (frame.take uuid.length) with
    | none =>
        refine .inl ⟨.inr ⟨mapped, found⟩, nrmSuccess, ?_⟩
        simp only [remove, empty, ↓reduceIte, read, Exec.ok_bind, found, Exec.pure_eq_ok]
    | some old =>
        refine .inr (.inl ⟨?_, nrmSuccess, table.erase (frame.take uuid.length), ?_⟩)
        · rintro (none | ⟨_, absent⟩)
          · exact empty none
          · cases found.symm.trans absent
        · simp only [remove, empty, ↓reduceIte, read, Exec.ok_bind, found, Exec.pure_eq_ok]
  · refine .inr (.inr ⟨?_, ?_⟩)
    · rintro (none | ⟨within, _⟩)
      · exact empty none
      · exact mapped within
    · simp only [remove, empty, ↓reduceIte, readBytes, mapped, Exec.error_bind]

end Hash

end LibNrm
