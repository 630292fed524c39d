import LibNrm.Utils.Hashes
import LibNrm.Utils.Uthash.Tables

namespace LibNrm

open Uthash

/-- `struct nrm_hash_s` without its handle. -/
structure HashElement (α : Type) where
  uuid : NrmString
  ptr : α
deriving DecidableEq, Repr

abbrev HashPointer (α : Type) := Hashtable (HashElement α)

def sizeofHash : Nat := 72

namespace HashPointer

variable {α : Type}

/-- `nrm_hash_add` -/
def add (granted : Nat → Bool) (self : HashPointer α) (uuid : NrmString) (ptr : α) :
    Proc (Int × HashPointer α) := do
  let found ← self.find hashJen uuid
  if found.isSome then pure (-nrmFailure, self)
  else if !granted sizeofHash then pure (-nrmEnomem, self)
  else
    let (memory, element) := self.memory.malloc ⟨uuid, ptr⟩
    let self ← Hashtable.addKeyptr hashJen granted ⟨memory, self.head, self.tbl⟩ uuid element
    pure (nrmSuccess, self)

/-- `nrm_hash_remove` -/
def remove (frame : List UInt8) (self : HashPointer α) (uuid : NrmString) (ptr : Ptr α) :
    Proc (Int × HashPointer α × Ptr α) := do
  if self.head = none then pure (-nrmEinval, self, ptr)
  else
    let key ← (readBytes frame uuid.length).toProc
    match ← self.find hashJen key with
    | none => pure (nrmSuccess, self, .null)
    | some tmp => do
        let self ← self.delete tmp
        let memory ← self.memory.free tmp
        pure (nrmSuccess, ⟨memory, self.head, self.tbl⟩, .freedElement)

/-- `nrm_hash_find` -/
def find (self : HashPointer α) (uuid : NrmString) : Proc (Int × Option α) := do
  if self.head = none then pure (-nrmEinval, none)
  else
    match ← Hashtable.find hashJen self uuid with
    | none => pure (-nrmEnotfound, none)
    | some tmp => do
        let item ← self.memory.load tmp
        pure (nrmSuccess, some item.element.ptr)

/-- `nrm_hash_size` -/
def size (self : HashPointer α) : Proc (Int × Option Nat) := do
  if self.head = none then pure (-nrmEinval, none)
  else
    let count ← self.count
    pure (nrmSuccess, some count.toNat)

/-- `nrm_hash_foreach`, with the uuid and the pointer the iterator gives at each turn. -/
def foreach (memory : Memory (HashElement α)) : Nat → Option Nat → Proc (List (NrmString × α))
  | _, none => .ok []
  | 0, some _ => .error .diverges
  | fuel + 1, some iterator => do
      let item ← memory.load iterator
      let rest ← foreach memory fuel (memory.next iterator)
      pure ((item.element.uuid, item.element.ptr) :: rest)

/-- The loop of `nrm_hash_destroy`: `HASH_ITER` reads ahead before the element goes. -/
def destroyFrom : Nat → HashPointer α → Option Nat → Option Nat → Proc (HashPointer α)
  | _, self, none, _ => .ok self
  | 0, _, some _, _ => .error .diverges
  | fuel + 1, self, some iterator, tmp => do
      let self ← self.delete iterator
      let memory ← self.memory.free iterator
      let following ← (match tmp with
        | none => pure none
        | some tmp => do
            let _ ← memory.load tmp
            pure (memory.next tmp) : Proc (Option Nat))
      destroyFrom fuel ⟨memory, self.head, self.tbl⟩ tmp following

/-- `nrm_hash_destroy` -/
def destroy (self : HashPointer α) : Proc (HashPointer α) := do
  let tmp ← (match self.head with
    | none => pure none
    | some head => do
        let _ ← self.memory.load head
        pure (self.memory.next head) : Proc (Option Nat))
  let self ← destroyFrom self.memory.fresh self self.head tmp
  pure { self with head := none }

end HashPointer

section Representation

variable {α : Type} {self : HashPointer α} {content : Nat → Item (HashElement α)}
  {addrs : List Nat} {bound : Nat}

def entry (content : Nat → Item (HashElement α)) (a : Nat) : NrmString × α :=
  ((content a).element.uuid, (content a).element.ptr)

/-- The table in memory has these entries, in this order, and at most `bound` buckets.
There is no element in memory that is not in the table. -/
def Represents (self : HashPointer α) (table : Hash α) (bound : Nat) : Prop :=
  ∃ content addrs, Valid hashJen self content addrs bound ∧
    (∀ a ∈ addrs, (content a).element.uuid = (content a).key) ∧
    table.entries = addrs.map (entry content) ∧ table.Distinct ∧
    ∀ a, self.memory.item a ≠ none → a ∈ addrs

theorem represents_empty [Inhabited α] (bound : Nat) :
    Represents (.empty : HashPointer α) .empty bound := by
  refine ⟨fun _ => ⟨⟨[], default⟩, [], 0, 0⟩, [], Valid.empty .., ?_, rfl,
    Data.Table.distinct_empty, ?_⟩
  · exact fun _ => nofun
  · exact fun a live => absurd rfl live

theorem Represents.head_eq_none_iff {table : Hash α} (rep : Represents self table bound) :
    self.head = none ↔ table.entries = [] := by
  obtain ⟨content, addrs, valid, _, entries, _, _⟩ := rep
  rw [valid.head, entries, List.head?_eq_none_iff, List.map_eq_nil_iff]

theorem lookup_entries {table : Hash α} (uuids : ∀ a ∈ addrs, (content a).element.uuid = (content a).key)
    (entries : table.entries = addrs.map (entry content)) (distinct : table.Distinct) {a : Nat}
    (member : a ∈ addrs) : table.lookup (content a).key = some (content a).element.ptr := by
  refine distinct.lookup_of_mem ?_
  rw [entries, ← uuids a member]
  exact List.mem_map_of_mem member

theorem Uthash.Valid.find_lookup (valid : Valid hashJen self content addrs bound) {table : Hash α}
    (uuids : ∀ a ∈ addrs, (content a).element.uuid = (content a).key)
    (entries : table.entries = addrs.map (entry content)) (distinct : table.Distinct)
    (key : NrmString) :
    (∃ a ∈ addrs, (content a).key = key ∧ Hashtable.find hashJen self key = .ok (some a) ∧
        table.lookup key = some (content a).element.ptr) ∨
      Hashtable.find hashJen self key = .ok none ∧ table.lookup key = none := by
  rcases valid.find_cases key with ⟨a, member, same, found⟩ | ⟨absent, found⟩
  · exact .inl ⟨a, member, same, found, same ▸ lookup_entries uuids entries distinct member⟩
  · refine .inr ⟨found, Data.Table.lookup_eq_none_iff.mpr fun listed => ?_⟩
    rw [Data.Table.keys, entries, List.map_map] at listed
    obtain ⟨a, member, same⟩ := List.mem_map.mp listed
    exact absent a member ((uuids a member).symm.trans same)

theorem erase_entries {table : Hash α} (uuids : ∀ a ∈ addrs, (content a).element.uuid = (content a).key)
    (entries : table.entries = addrs.map (entry content)) (distinct : table.Distinct)
    (addresses : addrs.Nodup) {a : Nat} (member : a ∈ addrs) :
    (table.erase (content a).key).entries = (addrs.erase a).map (entry content) := by
  obtain ⟨front, back, rfl⟩ := List.append_of_mem member
  have keys : table.keys = (front ++ a :: back).map fun b => (content b).element.uuid := by
    rw [Data.Table.keys, entries, List.map_map]
    rfl
  have apart : ∀ b ∈ front, (content b).element.uuid ≠ (content a).element.uuid := by
    rw [Data.Table.Distinct, keys, List.map_append, List.nodup_append] at distinct
    intro b there
    exact distinct.2.2 _ (List.mem_map_of_mem there) _ (by simp)
  have here := uuids a member
  rw [Data.Table.erase, entries, erase_middle addresses, List.map_append, List.map_cons,
    List.eraseP_append_right, List.eraseP_cons_of_pos, List.map_append]
  · exact decide_eq_true here
  · intro listed member same
    obtain ⟨b, there, rfl⟩ := List.mem_map.mp member
    exact apart b there ((of_decide_eq_true same).trans here.symm)

end Representation

section Operations

variable {α : Type} {self : HashPointer α} {table : Hash α} {bound : Nat}

/-- `nrm_hash_add` on the entries, when an allocation may fail. -/
def Hash.addGranted (granted : Nat → Bool) (table : Hash α) (uuid : NrmString) (ptr : α) :
    Int × Hash α :=
  if table.lookup uuid = none ∧ !granted sizeofHash then (-nrmEnomem, table)
  else table.add uuid ptr

/-- `nrm_hash_size` on the entries; the count is an `unsigned`. -/
def Hash.size (table : Hash α) : Int × Option Nat :=
  if table.entries = [] then (-nrmEinval, none)
  else (nrmSuccess, some (table.entries.length % 2 ^ 32))

theorem Represents.weaken {more : Nat} (rep : Represents self table bound) (le : bound ≤ more) :
    Represents self table more := by
  obtain ⟨content, addrs, valid, uuids, entries, distinct, owned⟩ := rep
  refine ⟨content, addrs, { valid with indexed := fun nonempty => ?_ }, uuids, entries, distinct,
    owned⟩
  obtain ⟨tbl, chains, present, indexed⟩ := valid.indexed nonempty
  exact ⟨tbl, chains, present, { indexed with grown := Nat.le_trans indexed.grown le }⟩

theorem HashPointer.add_of_absent {granted : Nat → Bool} {uuid : NrmString} {ptr : α}
    (found : Hashtable.find hashJen self uuid = .ok none) (given : granted sizeofHash = true) :
    self.add granted uuid ptr =
      Hashtable.addKeyptr hashJen granted
          ⟨(self.memory.malloc ⟨uuid, ptr⟩).1, self.head, self.tbl⟩ uuid self.memory.fresh >>=
        fun after => pure (nrmSuccess, after) := by
  simp only [HashPointer.add, found, given, Proc.ok_bind, Option.isSome_none, Bool.not_true,
    Bool.false_eq_true, ↓reduceIte]
  rfl

theorem Represents.add {granted : Nat → Bool} (rep : Represents self table bound)
    (limit : ∀ size, 2 ^ 36 ≤ size → granted size = false) (room : 32 ≤ bound)
    {uuid : NrmString} (short : uuid.length < 2 ^ 32) (ptr : α) :
    self.add granted uuid ptr = .error (.exit (-1)) ∧ Refused granted (32 * bound) ∨
      ∃ after, self.add granted uuid ptr = .ok ((table.addGranted granted uuid ptr).1, after) ∧
        Represents after (table.addGranted granted uuid ptr).2 (2 * bound) := by
  have doubled : bound ≤ 2 * bound := by omega
  have ⟨content, addrs, valid, uuids, entries, distinct, owned⟩ := rep
  rcases valid.find_lookup uuids entries distinct uuid with ⟨a, _, _, found, present⟩ | ⟨found, absent⟩
  · refine .inr ⟨self, ?_, ?_⟩
    · simp [HashPointer.add, found, Hash.addGranted, Hash.add, present]
    · simpa [Hash.addGranted, Hash.add, present] using rep.weaken doubled
  cases given : granted sizeofHash with
  | false =>
      refine .inr ⟨self, ?_, ?_⟩
      · simp [HashPointer.add, found, Hash.addGranted, absent, given]
      · simpa [Hash.addGranted, absent, given] using rep.weaken doubled
  | true =>
      have outside : self.memory.fresh ∉ addrs := fun member =>
        Nat.lt_irrefl _ (valid.bounded _ member)
      have apart : ∀ b ∈ addrs, b ≠ self.memory.fresh := fun b member same =>
        outside (same ▸ member)
      have added : table.addGranted granted uuid ptr = (nrmSuccess, table.append uuid ptr) := by
        simp [Hash.addGranted, Hash.add, absent, given]
      rcases (valid.malloc ⟨uuid, ptr⟩).addKeyptr_spec limit (Function.update_self ..)
          (Nat.lt_succ_self _) outside short room with
        ⟨exited, refused⟩ | ⟨after, done, items, _, valid'⟩
      · refine .inl ⟨?_, refused⟩
        rw [HashPointer.add_of_absent found given, exited, Proc.error_bind]
      refine .inr ⟨after, ?_, _, _, valid', ?_, ?_, ?_, ?_⟩
      · rw [HashPointer.add_of_absent found given, done, Proc.ok_bind, added, Proc.pure_eq_ok]
      · intro b member
        rcases List.mem_append.mp member with old | last
        · rw [Function.update_of_ne (apart b old)]
          exact uuids b old
        · rw [List.mem_singleton.mp last, Function.update_self]
          rfl
      · have kept : addrs.map (entry (Function.update content self.memory.fresh
            (Item.filled hashJen ⟨uuid, ptr⟩ uuid))) = addrs.map (entry content) := by
          refine List.map_congr_left fun b member => ?_
          rw [entry, entry, Function.update_of_ne (apart b member)]
        rw [added, List.map_append, kept, ← entries, List.map_singleton, entry, Function.update_self]
        rfl
      · rw [added]
        exact distinct.append ptr absent
      · intro b live
        by_cases here : b = self.memory.fresh
        · exact List.mem_append_right _ (List.mem_singleton.mpr here)
        · rw [items, Function.update_of_ne here] at live
          change Function.update self.memory.item self.memory.fresh _ b ≠ none at live
          rw [Function.update_of_ne here] at live
          exact List.mem_append_left _ (owned b live)

theorem Represents.remove (rep : Represents self table bound) (frame : List UInt8)
    (uuid : NrmString) (ptr : Ptr α) :
    self.remove frame uuid ptr = .error (.fault .unmapped) ∧
        table.entries ≠ [] ∧ frame.length < uuid.length ∨
      ∃ code after left remaining, self.remove frame uuid ptr = .ok (code, after, left) ∧
        table.remove frame uuid ptr = .ok (code, remaining, left) ∧
        Represents after remaining bound := by
  have headless := rep.head_eq_none_iff
  have ⟨content, addrs, valid, uuids, entries, distinct, owned⟩ := rep
  by_cases empty : table.entries = []
  · refine .inr ⟨-nrmEinval, self, ptr, table, ?_, ?_, rep⟩
    · simp [HashPointer.remove, headless, empty]
    · simp [Hash.remove, empty]
  by_cases mapped : uuid.length ≤ frame.length
  swap
  · refine .inl ⟨?_, empty, by omega⟩
    simp [HashPointer.remove, headless, empty, readBytes, mapped, Exec.toProc]
  have read : readBytes frame uuid.length = .ok (frame.take uuid.length) := by
    simp only [readBytes, mapped, ↓reduceIte]
  refine .inr ?_
  rcases valid.find_lookup uuids entries distinct (frame.take uuid.length) with
    ⟨a, member, same, found, present⟩ | ⟨found, absent⟩
  · obtain ⟨between, deleted, items, _, valid'⟩ := valid.delete_spec member
    have gone : a ∉ addrs.erase a := fun there => (valid.distinct.mem_erase_iff.mp there).1 rfl
    have live : between.memory.item a = some (content a) := by
      rw [items]
      exact valid.live a member
    obtain ⟨memory, freed, left, valid''⟩ := valid'.free live gone
    refine ⟨nrmSuccess, ⟨memory, between.head, between.tbl⟩, .freedElement,
      table.erase (frame.take uuid.length), ?_, ?_, content, addrs.erase a, valid'', ?_, ?_, ?_, ?_⟩
    · simp [HashPointer.remove, headless, empty, read, Exec.toProc, found, deleted, freed]
    · simp [Hash.remove, empty, read, present]
    · exact fun b there => uuids b (List.mem_of_mem_erase there)
    · rw [← same]
      exact erase_entries uuids entries distinct valid.distinct member
    · exact distinct.erase _
    · intro b there
      rw [left, items] at there
      have other : b ≠ a := by
        intro same
        rw [same, Function.update_self] at there
        exact there rfl
      rw [Function.update_of_ne other] at there
      exact valid.distinct.mem_erase_iff.mpr ⟨other, owned b there⟩
  · refine ⟨nrmSuccess, self, .null, table, ?_, ?_, rep⟩
    · simp [HashPointer.remove, headless, empty, read, Exec.toProc, found]
    · simp [Hash.remove, empty, read, absent]

theorem Represents.find (rep : Represents self table bound) (uuid : NrmString) :
    HashPointer.find self uuid = .ok (table.find uuid) := by
  have headless := rep.head_eq_none_iff
  obtain ⟨content, addrs, valid, uuids, entries, distinct, _⟩ := rep
  by_cases empty : table.entries = []
  · simp [HashPointer.find, headless, Hash.find, empty]
  rcases valid.find_lookup uuids entries distinct uuid with ⟨a, member, _, found, present⟩ | ⟨found, absent⟩
  · simp [HashPointer.find, headless, empty, found, Hash.find, present,
      Memory.load_of_live (valid.live a member)]
  · simp [HashPointer.find, headless, empty, found, Hash.find, absent]

theorem Represents.size (rep : Represents self table bound) : self.size = .ok table.size := by
  have headless := rep.head_eq_none_iff
  obtain ⟨content, addrs, valid, _, entries, _, _⟩ := rep
  by_cases empty : table.entries = []
  · simp [HashPointer.size, headless, Hash.size, empty]
  · have length : table.entries.length = addrs.length := by rw [entries, List.length_map]
    simp [HashPointer.size, headless, empty, Hash.size, valid.count_eq, length]

theorem foreach_spec {memory : Memory (HashElement α)} {content : Nat → Item (HashElement α)}
    (chain : List Nat) {before : Option Nat} {fuel : Nat} (enough : chain.length ≤ fuel)
    (linked : Data.Linked memory.next memory.prev before chain none)
    (live : ∀ a ∈ chain, memory.item a = some (content a)) :
    HashPointer.foreach memory fuel chain.head? = .ok (chain.map (entry content)) := by
  induction chain generalizing before fuel with
  | nil => rw [List.head?_nil, HashPointer.foreach, List.map_nil]
  | cons a rest ih =>
      obtain ⟨fuel, rfl⟩ : ∃ less, fuel = less + 1 := ⟨fuel - 1, by simp at enough; omega⟩
      obtain ⟨_, toNext, linked⟩ := linked
      have later := ih (by simpa using enough) linked
        (fun b member => live b (List.mem_cons_of_mem a member))
      simp only [List.head?_cons, HashPointer.foreach,
        Memory.load_of_live (live a List.mem_cons_self), toNext, Option.or_none, later,
        Proc.ok_bind, Proc.pure_eq_ok, List.map_cons, entry]

theorem Represents.foreach (rep : Represents self table bound) :
    HashPointer.foreach self.memory self.memory.fresh self.head = .ok table.entries := by
  obtain ⟨content, addrs, valid, _, entries, _, _⟩ := rep
  rw [valid.head, entries]
  exact foreach_spec addrs (length_le_fresh valid.distinct valid.bounded) valid.linked valid.live

theorem destroyFrom_spec {content : Nat → Item (HashElement α)} (addrs : List Nat)
    {self : HashPointer α} {fuel : Nat} (enough : addrs.length ≤ fuel)
    (valid : Valid hashJen self content addrs bound) :
    ∃ after, HashPointer.destroyFrom fuel self addrs.head? addrs.tail.head? = .ok after ∧
      (∀ a ∈ addrs, after.memory.item a = none) ∧
      ∀ a, a ∉ addrs → after.memory.item a = self.memory.item a := by
  induction addrs generalizing self fuel with
  | nil =>
      refine ⟨self, ?_, fun _ => nofun, fun _ _ => rfl⟩
      rw [List.head?_nil, HashPointer.destroyFrom]
  | cons a rest ih =>
      obtain ⟨fuel, rfl⟩ : ∃ less, fuel = less + 1 := ⟨fuel - 1, by simp at enough; omega⟩
      obtain ⟨notLater, _⟩ := List.nodup_cons.mp valid.distinct
      obtain ⟨between, deleted, items, _, valid'⟩ := valid.delete_spec List.mem_cons_self
      rw [List.erase_cons_head] at valid'
      have live : between.memory.item a = some (content a) := by
        rw [items]
        exact valid.live a List.mem_cons_self
      obtain ⟨memory, freed, left, valid''⟩ := valid'.free live notLater
      obtain ⟨after, done, dead, others⟩ := ih (by simpa using enough) valid''
      refine ⟨after, ?_, ?_, ?_⟩
      · simp only [List.head?_cons, List.tail_cons, HashPointer.destroyFrom, deleted, freed,
          Proc.ok_bind]
        cases rest with
        | nil => exact done
        | cons next rest =>
            have toNext : memory.next next = rest.head? := by
              rw [valid''.linked.2.1, Option.or_none]
            simp only [List.head?_cons,
              Memory.load_of_live (valid''.live next List.mem_cons_self), Proc.ok_bind, toNext]
            exact done
      · intro b member
        rcases List.mem_cons.mp member with rfl | later
        · rw [others b notLater]
          exact (congrFun left b).trans (Function.update_self ..)
        · exact dead b later
      · intro b outside
        rw [List.mem_cons, not_or] at outside
        rw [others b outside.2]
        change memory.item b = _
        rw [left, Function.update_of_ne outside.1, items]

theorem Represents.destroy [Inhabited α] (rep : Represents self table bound) :
    ∃ after, self.destroy = .ok after ∧ Represents after .empty bound := by
  obtain ⟨content, addrs, valid, _, _, _, owned⟩ := rep
  obtain ⟨after, done, dead, others⟩ :=
    destroyFrom_spec addrs (length_le_fresh valid.distinct valid.bounded) valid
  have ahead : (match self.head with
      | none => pure none
      | some head => do
          let _ ← self.memory.load head
          pure (self.memory.next head) : Proc (Option Nat)) = .ok addrs.tail.head? := by
    rw [valid.head]
    cases addrs with
    | nil => rfl
    | cons a rest =>
        have toNext : self.memory.next a = rest.head? := by
          rw [valid.linked.2.1, Option.or_none]
        simp only [List.head?_cons, Memory.load_of_live (valid.live a List.mem_cons_self),
          Proc.ok_bind, toNext, Proc.pure_eq_ok, List.tail_cons]
  refine ⟨{ after with head := none }, ?_, fun _ => ⟨⟨[], default⟩, [], 0, 0⟩, [], Valid.empty ..,
    fun _ => nofun, rfl, Data.Table.distinct_empty, ?_⟩
  · rw [HashPointer.destroy, ahead, Proc.ok_bind, valid.head, done, Proc.ok_bind, Proc.pure_eq_ok]
  · intro a live
    by_cases member : a ∈ addrs
    · exact absurd (dead a member) live
    · exact absurd (owned a (others a member ▸ live)) member

end Operations

/-- A call of a user of the table.  Each call to `nrm_hash_add` finds the allocator in
a state of its own. -/
inductive HashOp (α : Type) where
  | add (uuid : NrmString) (ptr : α) (granted : Nat → Bool)
  | remove (uuid : NrmString) (frame : List UInt8) (ptr : Ptr α)
  | find (uuid : NrmString)
  | size
  | foreach
  | destroy

/-- What the call gives back. -/
inductive HashReply (α : Type) where
  | code (code : Int)
  | removed (code : Int) (ptr : Ptr α)
  | found (code : Int) (ptr : Option α)
  | sized (code : Int) (len : Option Nat)
  | visited (entries : List (NrmString × α))
  | destroyed
deriving DecidableEq, Repr

section Runs

variable {α : Type}

def HashPointer.step (self : HashPointer α) : HashOp α → Proc (HashPointer α × HashReply α)
  | .add uuid ptr granted => do
      let (code, self) ← self.add granted uuid ptr
      pure (self, .code code)
  | .remove uuid frame ptr => do
      let (code, self, ptr) ← self.remove frame uuid ptr
      pure (self, .removed code ptr)
  | .find uuid => do
      let (code, ptr) ← HashPointer.find self uuid
      pure (self, .found code ptr)
  | .size => do
      let (code, len) ← self.size
      pure (self, .sized code len)
  | .foreach => do
      let entries ← HashPointer.foreach self.memory self.memory.fresh self.head
      pure (self, .visited entries)
  | .destroy => do
      let self ← self.destroy
      pure (self, .destroyed)

def HashPointer.run : HashPointer α → List (HashOp α) → Proc (HashPointer α × List (HashReply α))
  | self, [] => .ok (self, [])
  | self, op :: ops => do
      let (self, reply) ← self.step op
      let (self, replies) ← HashPointer.run self ops
      pure (self, reply :: replies)

def Hash.step (table : Hash α) : HashOp α → Exec (Hash α × HashReply α)
  | .add uuid ptr granted =>
      let (code, table) := table.addGranted granted uuid ptr
      pure (table, .code code)
  | .remove uuid frame ptr => do
      let (code, table, ptr) ← table.remove frame uuid ptr
      pure (table, .removed code ptr)
  | .find uuid =>
      let (code, ptr) := table.find uuid
      pure (table, .found code ptr)
  | .size =>
      let (code, len) := table.size
      pure (table, .sized code len)
  | .foreach => pure (table, .visited table.entries)
  | .destroy => pure (.empty, .destroyed)

def Hash.run : Hash α → List (HashOp α) → Exec (Hash α × List (HashReply α))
  | table, [] => .ok (table, [])
  | table, op :: ops => do
      let (table, reply) ← table.step op
      let (table, replies) ← Hash.run table ops
      pure (table, reply :: replies)

/-- Keys whose length fits an `unsigned`, and an allocator that does not hand out
64 GiB at once. -/
def HashOp.Sane : HashOp α → Prop
  | .add uuid _ granted => uuid.length < 2 ^ 32 ∧ ∀ size, 2 ^ 36 ≤ size → granted size = false
  | .remove uuid _ _ => uuid.length < 2 ^ 32
  | _ => True

/-- The allocator fails on a request of at most `bound` bytes. -/
def HashOp.Refuses (bound : Nat) : HashOp α → Prop
  | .add _ _ granted => Refused granted bound
  | _ => False

/-- A removal reads on past the end of the stack. -/
def HashOp.Overreads (table : Hash α) : HashOp α → Prop
  | .remove uuid frame _ => table.entries ≠ [] ∧ frame.length < uuid.length
  | _ => False

def HashOp.isAdd : HashOp α → Bool
  | .add _ _ _ => true
  | _ => false

theorem HashOp.Refuses.mono {op : HashOp α} {bound more : Nat} (refuses : op.Refuses bound)
    (le : bound ≤ more) : op.Refuses more := by
  cases op with
  | add uuid ptr granted =>
      obtain ⟨size, small, refused⟩ := refuses
      exact ⟨size, Nat.le_trans small le, refused⟩
  | _ => exact refuses

/-- One call: the same reply, and the tables stay together.  An addition at most doubles
the buckets. -/
theorem Represents.step [Inhabited α] {self : HashPointer α} {table : Hash α} {bound : Nat}
    (rep : Represents self table bound) (room : 32 ≤ bound) {op : HashOp α} (sane : op.Sane) :
    self.step op = .error (.exit (-1)) ∧ op.Refuses (32 * bound) ∨
      self.step op = .error (.fault .unmapped) ∧ op.Overreads table ∨
      ∃ after next reply, self.step op = .ok (after, reply) ∧ table.step op = .ok (next, reply) ∧
        Represents after next (if op.isAdd then 2 * bound else bound) := by
  cases op with
  | add uuid ptr granted =>
      rcases rep.add sane.2 room sane.1 ptr with ⟨exited, refused⟩ | ⟨after, done, rep'⟩
      · exact .inl ⟨by simp only [HashPointer.step, exited, Proc.error_bind], refused⟩
      · exact .inr (.inr ⟨after, _, _, by simp only [HashPointer.step, done, Proc.ok_bind]; rfl, rfl, rep'⟩)
  | remove uuid frame ptr =>
      rcases rep.remove frame uuid ptr with ⟨ended, beyond⟩ | ⟨code, after, left, next, done, same, rep'⟩
      · exact .inr (.inl ⟨by simp only [HashPointer.step, ended, Proc.error_bind], beyond⟩)
      · refine .inr (.inr ⟨after, next, .removed code left, ?_, ?_, rep'⟩)
        · simp only [HashPointer.step, done, Proc.ok_bind, Proc.pure_eq_ok]
        · simp only [Hash.step, same, Exec.ok_bind, Exec.pure_eq_ok]
  | find uuid =>
      refine .inr (.inr ⟨self, _, _, ?_, rfl, rep⟩)
      simp only [HashPointer.step, rep.find uuid, Proc.ok_bind]
      rfl
  | size =>
      refine .inr (.inr ⟨self, _, _, ?_, rfl, rep⟩)
      simp only [HashPointer.step, rep.size, Proc.ok_bind]
      rfl
  | «foreach» =>
      refine .inr (.inr ⟨self, _, _, ?_, rfl, rep⟩)
      simp only [HashPointer.step, rep.foreach, Proc.ok_bind]
      rfl
  | destroy =>
      obtain ⟨after, done, rep'⟩ := rep.destroy
      exact .inr (.inr ⟨after, _, _, by simp only [HashPointer.step, done, Proc.ok_bind]; rfl, rfl, rep'⟩)

theorem Represents.run [Inhabited α] {self : HashPointer α} {table : Hash α} {k : Nat}
    (rep : Represents self table (32 * 2 ^ k)) (ops : List (HashOp α)) (sane : ∀ op ∈ ops, op.Sane) :
    self.run ops = .error (.exit (-1)) ∧
        (∃ op ∈ ops, op.Refuses (1024 * 2 ^ (k + ops.countP HashOp.isAdd))) ∨
      self.run ops = .error (.fault .unmapped) ∧
        (∃ before op later last replies, ops = before ++ op :: later ∧
          table.run before = .ok (last, replies) ∧ op.Overreads last) ∨
      ∃ after last replies, self.run ops = .ok (after, replies) ∧ table.run ops = .ok (last, replies) ∧
        Represents after last (32 * 2 ^ (k + ops.countP HashOp.isAdd)) := by
  induction ops generalizing self table k with
  | nil => exact .inr (.inr ⟨self, table, [], rfl, rfl, rep⟩)
  | cons op ops ih =>
      have room : 32 ≤ 32 * 2 ^ k := Nat.le_mul_of_pos_right 32 (Nat.two_pow_pos k)
      rcases rep.step room (sane op List.mem_cons_self) with
        ⟨exited, refuses⟩ | ⟨ended, beyond⟩ | ⟨between, next, reply, done, same, rep'⟩
      · refine .inl ⟨by simp only [HashPointer.run, exited, Proc.error_bind], op,
          List.mem_cons_self, refuses.mono ?_⟩
        rw [← Nat.mul_assoc]
        exact Nat.mul_le_mul_left _ (Nat.pow_le_pow_right Nat.zero_lt_two (Nat.le_add_right ..))
      · exact .inr (.inl ⟨by simp only [HashPointer.run, ended, Proc.error_bind],
          [], op, ops, table, [], rfl, rfl, beyond⟩)
      · have grown : (if op.isAdd then 2 * (32 * 2 ^ k) else 32 * 2 ^ k) =
            32 * 2 ^ (k + if op.isAdd then 1 else 0) := by
          split
          · rw [Nat.pow_succ]
            omega
          · rfl
        have count : k + (op :: ops).countP HashOp.isAdd =
            (k + if op.isAdd then 1 else 0) + ops.countP HashOp.isAdd := by
          rw [List.countP_cons]
          omega
        rw [grown] at rep'
        rw [count]
        rcases ih rep' (fun later member => sane later (List.mem_cons_of_mem op member)) with
          ⟨exited, later, member, refuses⟩ | ⟨ended, before, bad, later, last, replies, split, ran, beyond⟩ |
          ⟨after, last, replies, rest, ran, rep''⟩
        · exact .inl ⟨by simp only [HashPointer.run, done, exited, Proc.ok_bind, Proc.error_bind],
            later, List.mem_cons_of_mem op member, refuses⟩
        · refine .inr (.inl ⟨by simp only [HashPointer.run, done, ended, Proc.ok_bind, Proc.error_bind],
            op :: before, bad, later, last, reply :: replies, by rw [split]; rfl, ?_, beyond⟩)
          simp only [Hash.run, same, ran, Exec.ok_bind, Exec.pure_eq_ok]
        · refine .inr (.inr ⟨after, last, reply :: replies, ?_, ?_, rep''⟩)
          · simp only [HashPointer.run, done, rest, Proc.ok_bind, Proc.pure_eq_ok]
          · simp only [Hash.run, same, ran, Exec.ok_bind, Exec.pure_eq_ok]

/-- Whatever is done with a table, the callers see the list of entries.  No freed
element is followed, no loop runs on, no element is left behind; the process ends
early only when an allocation is refused, and what it asks for at most doubles with
every addition, or when a removal from a table that is not empty reads past the end of
the stack. -/
theorem hash_run_refines [Inhabited α] (ops : List (HashOp α)) (sane : ∀ op ∈ ops, op.Sane) :
    HashPointer.run .empty ops = .error (.exit (-1)) ∧
        (∃ op ∈ ops, op.Refuses (1024 * 2 ^ ops.countP HashOp.isAdd)) ∨
      HashPointer.run .empty ops = .error (.fault .unmapped) ∧
        (∃ before op later table replies, ops = before ++ op :: later ∧
          Hash.run .empty before = .ok (table, replies) ∧ op.Overreads table) ∨
      ∃ after table replies, HashPointer.run .empty ops = .ok (after, replies) ∧
        Hash.run .empty ops = .ok (table, replies) ∧
        Represents after table (32 * 2 ^ ops.countP HashOp.isAdd) := by
  have start : Represents (.empty : HashPointer α) .empty (32 * 2 ^ 0) := represents_empty _
  simpa only [Nat.zero_add] using start.run ops sane

end Runs

/-- Two entries, one of them added twice and then removed by a frame that happens to hold its
key. -/
def sampleOps : List (HashOp Nat) :=
  let granted := fun size => decide (size < 2 ^ 36)
  [.add [97] 1 granted, .add [98] 2 granted, .add [97] 3 granted, .find [97],
    .remove [99] [97, 97, 97, 97, 97, 97, 97, 97] .null, .foreach, .size, .destroy, .size]

theorem hash_run_refines_sample :
    ∃ after, HashPointer.run .empty sampleOps = .ok (after,
      [.code 0, .code 0, .code (-1), .found 0 (some 1), .removed 0 .freedElement,
        .visited [([98], 2)], .sized 0 (some 1), .destroyed, .sized (-3) none]) := by
  have sane : ∀ op ∈ sampleOps, op.Sane := by
    simp [sampleOps, HashOp.Sane]
  have listed : Hash.run .empty sampleOps = .ok (.empty,
      [.code 0, .code 0, .code (-1), .found 0 (some 1), .removed 0 .freedElement,
        .visited [([98], 2)], .sized 0 (some 1), .destroyed, .sized (-3) none]) := rfl
  rcases hash_run_refines sampleOps sane with ⟨_, op, member, refuses⟩ |
    ⟨_, before, op, later, table, _, split, _, beyond⟩ | ⟨after, table, replies, done, same, _⟩
  · -- three additions ask for 8 KiB at most
    have additions : sampleOps.countP HashOp.isAdd = 3 := rfl
    rw [additions] at refuses
    simp only [sampleOps, List.mem_cons, List.not_mem_nil, or_false] at member
    rcases member with rfl | rfl | rfl | rfl | rfl | rfl | rfl | rfl | rfl <;>
      simp only [HashOp.Refuses, Refused, decide_eq_false_iff_not, not_lt] at refuses
    all_goals
      obtain ⟨size, small, large⟩ := refuses
      omega
  · -- the key that is removed has one byte, and eight are mapped
    have member : op ∈ sampleOps := by
      rw [split]
      exact List.mem_append_right _ List.mem_cons_self
    simp only [sampleOps, List.mem_cons, List.not_mem_nil, or_false] at member
    rcases member with rfl | rfl | rfl | rfl | rfl | rfl | rfl | rfl | rfl <;>
      simp [HashOp.Overreads] at beyond
  · cases same.symm.trans listed
    exact ⟨after, done⟩

end LibNrm
