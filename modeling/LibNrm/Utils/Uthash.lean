import LibNrm.Utils.Basic
import LibNrm.Data.Linked

namespace LibNrm

/-! The hash table under `nrm_hash_t` and under the event database, with its memory:
elements have addresses, the pointers of `UT_hash_handle` are followed one by
one, and an element that was freed cannot be followed any more.  Every element
is on two doubly linked lists, the one of all elements in the order they were
added and the one of its bucket.
-/

namespace Uthash

/-- `HASH_JEN_MIX` -/
def hashJenMix (a b c : UInt32) : UInt32 × UInt32 × UInt32 :=
  let a := (a - b - c) ^^^ (c >>> 13)
  let b := (b - c - a) ^^^ (a <<< 8)
  let c := (c - a - b) ^^^ (b >>> 13)
  let a := (a - b - c) ^^^ (c >>> 12)
  let b := (b - c - a) ^^^ (a <<< 16)
  let c := (c - a - b) ^^^ (b >>> 5)
  let a := (a - b - c) ^^^ (c >>> 3)
  let b := (b - c - a) ^^^ (a <<< 10)
  let c := (c - a - b) ^^^ (b >>> 15)
  (a, b, c)

/-- A byte of the key. There is none past its end, and reading it as zero adds nothing. -/
def keyByte (key : List UInt8) (i : Nat) : UInt32 := (key.getD i 0).toUInt32

def keyWord (key : List UInt8) (i : Nat) : UInt32 :=
  keyByte key i + (keyByte key (i + 1) <<< 8) + (keyByte key (i + 2) <<< 16) +
    (keyByte key (i + 3) <<< 24)

/-- The twelve byte blocks, and what is left of the key behind them. -/
def hashJenBlocks : Nat → List UInt8 → UInt32 × UInt32 × UInt32 →
    List UInt8 × UInt32 × UInt32 × UInt32
  | 0, key, mixed => (key, mixed)
  | blocks + 1, key, (i, j, hashv) =>
      hashJenBlocks blocks (key.drop 12)
        (hashJenMix (i + keyWord key 0) (j + keyWord key 4) (hashv + keyWord key 8))

/-- `HASH_JEN`, with the length of the key in an `unsigned`. -/
def hashJen (key : List UInt8) : UInt32 :=
  let keylen := key.length % 2 ^ 32
  let (rest, i, j, hashv) :=
    hashJenBlocks (keylen / 12) (key.take keylen) (0x9e3779b9, 0x9e3779b9, 0xfeedbeef)
  let hashv := hashv + UInt32.ofNat keylen
  -- the switch falls through, so every byte that is left is added
  let hashv := hashv + (keyByte rest 10 <<< 24) + (keyByte rest 9 <<< 16) + (keyByte rest 8 <<< 8)
  (hashJenMix (i + keyWord rest 0) (j + keyWord rest 4) hashv).2.2

/-- An element, and of its handle what does not change while it is in a table. -/
structure Item (ε : Type) where
  element : ε
  key : List UInt8
  keylen : UInt32
  hashv : UInt32
deriving DecidableEq, Repr

/-- The elements by address, and the four pointers of their handles. -/
structure Memory (ε : Type) where
  item : Nat → Option (Item ε)
  next : Nat → Option Nat
  prev : Nat → Option Nat
  hhNext : Nat → Option Nat
  hhPrev : Nat → Option Nat
  /-- addresses from here on were never handed out -/
  fresh : Nat

namespace Memory

variable {ε : Type}

def empty : Memory ε := ⟨fun _ => none, fun _ => none, fun _ => none, fun _ => none, fun _ => none, 0⟩

def load (memory : Memory ε) (address : Nat) : Proc (Item ε) :=
  match memory.item address with
  | some item => .ok item
  | none => .error (.fault .danglingPointer)

def setNext (memory : Memory ε) (address : Nat) (pointer : Option Nat) : Proc (Memory ε) := do
  let _ ← memory.load address
  pure { memory with next := Function.update memory.next address pointer }

def setPrev (memory : Memory ε) (address : Nat) (pointer : Option Nat) : Proc (Memory ε) := do
  let _ ← memory.load address
  pure { memory with prev := Function.update memory.prev address pointer }

def setHhNext (memory : Memory ε) (address : Nat) (pointer : Option Nat) : Proc (Memory ε) := do
  let _ ← memory.load address
  pure { memory with hhNext := Function.update memory.hhNext address pointer }

def setHhPrev (memory : Memory ε) (address : Nat) (pointer : Option Nat) : Proc (Memory ε) := do
  let _ ← memory.load address
  pure { memory with hhPrev := Function.update memory.hhPrev address pointer }

/-- `if (target != NULL) target->field = pointer` -/
def unlessNull (target : Option Nat) (write : Nat → Proc (Memory ε)) (memory : Memory ε) :
    Proc (Memory ε) :=
  match target with
  | none => .ok memory
  | some address => write address

/-- A new element; its handle is not initialised. -/
def malloc (memory : Memory ε) (element : ε) : Memory ε × Nat :=
  ({ memory with
      item := Function.update memory.item memory.fresh (some ⟨element, [], 0, 0⟩)
      fresh := memory.fresh + 1 },
    memory.fresh)

def free (memory : Memory ε) (address : Nat) : Proc (Memory ε) := do
  let _ ← memory.load address
  pure { memory with item := Function.update memory.item address none }

/-- The part of the handle that `HASH_ADD_KEYPTR` fills in first. -/
def setKey (memory : Memory ε) (address : Nat) (hashval : UInt32) (key : List UInt8) :
    Proc (Memory ε) := do
  let item ← memory.load address
  pure { memory with
    item := Function.update memory.item address
      (some ⟨item.element, key, UInt32.ofNat key.length, hashval⟩) }

end Memory

structure Bucket where
  hhHead : Option Nat
  count : UInt32
  expandMult : UInt32
deriving DecidableEq, Repr

/-- `UT_hash_table` -/
structure Table where
  buckets : List Bucket
  numBuckets : UInt32
  log2NumBuckets : UInt32
  numItems : UInt32
  tail : Nat
  idealChainMaxlen : UInt32
  nonidealItems : UInt32
  ineffExpands : UInt32
  noexpand : Bool
deriving DecidableEq, Repr

/-- A table as its user holds it: the head pointer, and the `tbl` every handle points at. -/
structure Hashtable (ε : Type) where
  memory : Memory ε
  head : Option Nat
  tbl : Option Table

def sizeofBucket : Nat := 16
def sizeofTable : Nat := 64

/-- `HASH_TO_BKT` -/
def hashToBkt (hashv numBkts : UInt32) : UInt32 := hashv &&& (numBkts - 1)

def bucketAt (buckets : List Bucket) (bkt : UInt32) : Proc Bucket :=
  match buckets[bkt.toNat]? with
  | some bucket => .ok bucket
  | none => .error (.fault .danglingPointer)

variable {ε : Type}

/-- The pointers of a new first element of a bucket. -/
def linkFront (memory : Memory ε) (hhHead : Option Nat) (addhh : Nat) : Proc (Memory ε) := do
  let memory ← memory.setHhNext addhh hhHead
  let memory ← memory.setHhPrev addhh none
  memory.unlessNull hhHead fun first => memory.setHhPrev first (some addhh)

/-- The inner loop of `HASH_EXPAND_BUCKETS`, over one chain.  A walk through more
elements than there are addresses has come back to where it was. -/
def expandChain (numBkts ideal : UInt32) :
    Nat → Memory ε × List Bucket × UInt32 → Option Nat → Proc (Memory ε × List Bucket × UInt32)
  | _, state, none => .ok state
  | 0, _, some _ => .error .diverges
  | fuel + 1, (memory, newBuckets, nonideal), some thh => do
      let item ← memory.load thh
      let hhNxt := memory.hhNext thh
      let bkt := hashToBkt item.hashv numBkts
      let newbkt ← bucketAt newBuckets bkt
      let count := newbkt.count + 1
      let (nonideal, expandMult) :=
        if ideal < count then
          (nonideal + 1,
            if newbkt.expandMult * ideal < count then newbkt.expandMult + 1 else newbkt.expandMult)
        else (nonideal, newbkt.expandMult)
      let memory ← linkFront memory newbkt.hhHead thh
      expandChain numBkts ideal fuel
        (memory, newBuckets.set bkt.toNat ⟨some thh, count, expandMult⟩, nonideal) hhNxt

/-- The ideal chain length for twice the buckets, rounded up. -/
def Table.idealChain (tbl : Table) : UInt32 :=
  (tbl.numItems >>> (tbl.log2NumBuckets + 1)) +
    if tbl.numItems &&& (tbl.numBuckets * 2 - 1) ≠ 0 then 1 else 0

/-- The table with its new buckets. Two ineffective expansions in a row are the last. -/
def Table.expanded (tbl : Table) (newBuckets : List Bucket) (nonideal : UInt32) : Table :=
  let ineffExpands := if tbl.numItems >>> 1 < nonideal then tbl.ineffExpands + 1 else 0
  { tbl with
    buckets := newBuckets
    numBuckets := tbl.numBuckets * 2
    log2NumBuckets := tbl.log2NumBuckets + 1
    idealChainMaxlen := tbl.idealChain
    nonidealItems := nonideal
    ineffExpands
    noexpand := tbl.noexpand || decide (1 < ineffExpands) }

/-- `HASH_EXPAND_BUCKETS`; without memory `uthash_fatal` ends the process. -/
def expandBuckets (granted : Nat → Bool) (memory : Memory ε) (tbl : Table) :
    Proc (Memory ε × Table) := do
  if !granted (sizeofBucket * tbl.numBuckets.toNat * 2) then .error (.exit (-1))
  else
    let newBuckets := List.replicate (tbl.numBuckets.toNat * 2) ⟨none, 0, 0⟩
    let (memory, newBuckets, nonideal) ← tbl.buckets.foldlM
      (fun state bucket =>
        expandChain (tbl.numBuckets * 2) tbl.idealChain memory.fresh state bucket.hhHead)
      (memory, newBuckets, 0)
    pure (memory, tbl.expanded newBuckets nonideal)

def Table.setBucket (tbl : Table) (bkt : UInt32) (bucket : Bucket) : Table :=
  { tbl with buckets := tbl.buckets.set bkt.toNat bucket }

/-- `HASH_ADD_TO_BKT` for the bucket of a hash value. -/
def addToBkt (granted : Nat → Bool) (memory : Memory ε) (tbl : Table) (bkt : UInt32) (addhh : Nat) :
    Proc (Memory ε × Table) := do
  let bucket ← bucketAt tbl.buckets bkt
  let count := bucket.count + 1
  let memory ← linkFront memory bucket.hhHead addhh
  let tbl := tbl.setBucket bkt { bucket with hhHead := some addhh, count }
  if (bucket.expandMult + 1) * 10 ≤ count ∧ !tbl.noexpand then expandBuckets granted memory tbl
  else pure (memory, tbl)

/-- `HASH_MAKE_TABLE` -/
def makeTable (granted : Nat → Bool) (head : Nat) : Proc Table :=
  if granted sizeofTable ∧ granted (32 * sizeofBucket) then
    .ok ⟨List.replicate 32 ⟨none, 0, 0⟩, 32, 5, 0, head, 0, 0, 0, false⟩
  else .error (.exit (-1))

namespace Hashtable

def empty : Hashtable ε := ⟨.empty, none, none⟩

/-- `(head)->hh.tbl` -/
def table (self : Hashtable ε) : Proc Table :=
  match self.head with
  | none => .error (.fault .nullDereference)
  | some head => do
      let _ ← self.memory.load head
      match self.tbl with
      | some tbl => .ok tbl
      | none => .error (.fault .danglingPointer)

/-- `HASH_FIND_IN_BKT`.  Key lengths are compared as they are, the one in the handle
cut to an `unsigned`. -/
def findInBkt (memory : Memory ε) (key : List UInt8) (hashval : UInt32) :
    Nat → Option Nat → Proc (Option Nat)
  | _, none => .ok none
  | 0, some _ => .error .diverges
  | fuel + 1, some out => do
      let item ← memory.load out
      if item.hashv = hashval ∧ item.keylen.toNat = key.length ∧ item.key.take key.length = key then
        pure (some out)
      else findInBkt memory key hashval fuel (memory.hhNext out)

/-- `HASH_FIND` -/
def find (hash : List UInt8 → UInt32) (self : Hashtable ε) (key : List UInt8) :
    Proc (Option Nat) := do
  if self.head = none then pure none
  else
    let hashval := hash key
    let tbl ← self.table
    let bucket ← bucketAt tbl.buckets (hashToBkt hashval tbl.numBuckets)
    findInBkt self.memory key hashval self.memory.fresh bucket.hhHead

/-- `HASH_APPEND_LIST` -/
def appendList (memory : Memory ε) (tail add : Nat) : Proc (Memory ε) := do
  let memory ← memory.setNext add none
  let memory ← memory.setPrev add (some tail)
  memory.setNext tail (some add)

/-- The part of `HASH_ADD_KEYPTR` that puts the element behind all others, in a new table if
there is none: the memory, the head and the table. -/
def addToList (granted : Nat → Bool) (self : Hashtable ε) (memory : Memory ε) (add : Nat) :
    Proc (Memory ε × Nat × Table) :=
  match self.head with
  | none => do
      let memory ← memory.setNext add none
      let memory ← memory.setPrev add none
      let tbl ← makeTable granted add
      pure (memory, add, tbl)
  | some head => do
      let tbl ← self.table
      let memory ← appendList memory tbl.tail add
      pure (memory, head, { tbl with tail := add })

/-- `HASH_ADD_KEYPTR` of an element in memory. -/
def addKeyptr (hash : List UInt8 → UInt32) (granted : Nat → Bool) (self : Hashtable ε)
    (key : List UInt8) (add : Nat) : Proc (Hashtable ε) := do
  let hashval := hash key
  let memory ← self.memory.setKey add hashval key
  let (memory, head, tbl) ← self.addToList granted memory add
  let tbl := { tbl with numItems := tbl.numItems + 1 }
  let (memory, tbl) ← addToBkt granted memory tbl (hashToBkt hashval tbl.numBuckets) add
  pure ⟨memory, some head, some tbl⟩

/-- `HASH_DEL_IN_BKT` -/
def delInBkt (memory : Memory ε) (buckets : List Bucket) (bkt : UInt32) (delhh : Nat) :
    Proc (Memory ε × List Bucket) := do
  let bucket ← bucketAt buckets bkt
  let hhNext := memory.hhNext delhh
  let hhPrev := memory.hhPrev delhh
  let hhHead := if bucket.hhHead = some delhh then hhNext else bucket.hhHead
  let memory ← memory.unlessNull hhPrev fun address => memory.setHhNext address hhNext
  let memory ← memory.unlessNull hhNext fun address => memory.setHhPrev address hhPrev
  pure (memory, buckets.set bkt.toNat { bucket with hhHead, count := bucket.count - 1 })

/-- `HASH_DELETE` -/
def delete (self : Hashtable ε) (del : Nat) : Proc (Hashtable ε) := do
  let item ← self.memory.load del
  let tbl ← self.table
  let memory := self.memory
  let next := memory.next del
  let prev := memory.prev del
  -- the last element takes the table with it
  if prev = none ∧ next = none then pure ⟨memory, none, none⟩
  else
    let tail := if del = tbl.tail then prev.getD del else tbl.tail
    let head := if prev = none then next else self.head
    let memory ← memory.unlessNull prev fun address => memory.setNext address next
    let memory ← memory.unlessNull next fun address => memory.setPrev address prev
    let bkt := hashToBkt item.hashv tbl.numBuckets
    let (memory, buckets) ← delInBkt memory tbl.buckets bkt del
    pure ⟨memory, head, some { tbl with buckets, tail, numItems := tbl.numItems - 1 }⟩

/-- `HASH_COUNT` -/
def count (self : Hashtable ε) : Proc UInt32 := do
  if self.head = none then pure 0
  else
    let tbl ← self.table
    pure tbl.numItems

end Hashtable

end Uthash

end LibNrm
