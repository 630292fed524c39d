import LibNrm.Utils.Uthash.Expansion

namespace LibNrm.Uthash

open Data

variable {ε : Type} {hash : List UInt8 → UInt32} {content : Nat → Item ε} {addrs : List Nat} {bound : Nat}

/-- An element whose handle was filled in for its key. -/
structure Item.Keyed (hash : List UInt8 → UInt32) (item : Item ε) : Prop where
  hashv : item.hashv = hash item.key
  keylen : item.keylen = UInt32.ofNat item.key.length
  short : item.key.length < 2 ^ 32

/-- The table the handles point at, for the elements of a list, with at most `bound`
buckets. -/
structure Indexed (memory : Memory ε) (content : Nat → Item ε) (addrs : List Nat) (bound : Nat)
    (tbl : Table) (chains : Nat → List Nat) : Prop where
  tail : addrs.getLast? = some tbl.tail
  numItems : tbl.numItems = UInt32.ofNat addrs.length
  positive : 0 < tbl.numBuckets.toNat
  grown : tbl.numBuckets.toNat ≤ bound
  spread : Spread memory content tbl.numBuckets tbl.buckets chains
  members : ∀ i a, a ∈ chains i ↔ a ∈ addrs ∧ bucketOf content tbl.numBuckets a = i

structure Valid (hash : List UInt8 → UInt32) (table : Hashtable ε) (content : Nat → Item ε)
    (addrs : List Nat) (bound : Nat) : Prop where
  head : table.head = addrs.head?
  linked : Linked table.memory.next table.memory.prev none addrs none
  distinct : addrs.Nodup
  live : ∀ a ∈ addrs, table.memory.item a = some (content a)
  bounded : ∀ a ∈ addrs, a < table.memory.fresh
  keyed : ∀ a ∈ addrs, (content a).Keyed hash
  indexed : addrs ≠ [] → ∃ tbl chains, table.tbl = some tbl ∧ Indexed table.memory content addrs bound tbl chains

theorem Valid.empty (hash : List UInt8 → UInt32) (content : Nat → Item ε) (memory : Memory ε)
    (tbl : Option Table) (bound : Nat) : Valid hash ⟨memory, none, tbl⟩ content [] bound where
  head := rfl
  linked := trivial
  distinct := List.nodup_nil
  live _ member := nomatch member
  bounded _ member := nomatch member
  keyed _ member := nomatch member
  indexed nonempty := absurd rfl nonempty

variable {self : Hashtable ε}

theorem Valid.grow (valid : Valid hash self content addrs bound) {larger : Nat}
    (le : bound ≤ larger) : Valid hash self content addrs larger where
  head := valid.head
  linked := valid.linked
  distinct := valid.distinct
  live := valid.live
  bounded := valid.bounded
  keyed := valid.keyed
  indexed nonempty := by
    obtain ⟨tbl, chains, present, indexed⟩ := valid.indexed nonempty
    exact ⟨tbl, chains, present, { indexed with grown := Nat.le_trans indexed.grown le }⟩

theorem Valid.table_eq (valid : Valid hash self content addrs bound) (nonempty : addrs ≠ []) :
    ∃ tbl chains, self.tbl = some tbl ∧ self.table = .ok tbl ∧
      Indexed self.memory content addrs bound tbl chains := by
  obtain ⟨tbl, chains, present, indexed⟩ := valid.indexed nonempty
  obtain ⟨first, rest, rfl⟩ := List.exists_cons_of_ne_nil nonempty
  have live := valid.live first List.mem_cons_self
  refine ⟨tbl, chains, present, ?_, indexed⟩
  simp only [Hashtable.table, valid.head, List.head?_cons, Memory.load_of_live live, present,
    Proc.ok_bind]

theorem Item.Keyed.matches_iff {item : Item ε} (keyed : item.Keyed hash) (key : List UInt8) :
    (item.hashv = hash key ∧ item.keylen.toNat = key.length ∧ item.key.take key.length = key) ↔
      item.key = key := by
  have length : item.keylen.toNat = item.key.length := by
    rw [keyed.keylen, UInt32.toNat_ofNat']
    exact Nat.mod_eq_of_lt keyed.short
  constructor
  · intro matched
    obtain ⟨_, sameLength, sameBytes⟩ := matched
    rwa [← sameLength, length, List.take_length] at sameBytes
  · intro same
    subst same
    exact ⟨keyed.hashv, length, List.take_length⟩

theorem findInBkt_spec {memory : Memory ε} (key : List UInt8) (chain : List Nat)
    {before : Option Nat} {fuel : Nat} (enough : chain.length ≤ fuel)
    (linked : Linked memory.hhNext memory.hhPrev before chain none)
    (live : ∀ a ∈ chain, memory.item a = some (content a))
    (keyed : ∀ a ∈ chain, (content a).Keyed hash) :
    Hashtable.findInBkt memory key (hash key) fuel chain.head? =
      .ok (chain.find? fun a => (content a).key = key) := by
  induction chain generalizing before fuel with
  | nil => rw [List.head?_nil, Hashtable.findInBkt, List.find?_nil]
  | cons a rest ih =>
      obtain ⟨fuel, rfl⟩ : ∃ less, fuel = less + 1 := ⟨fuel - 1, by simp at enough; omega⟩
      obtain ⟨_, toNext, linked⟩ := linked
      have decided := (keyed a List.mem_cons_self).matches_iff key
      simp only [List.head?_cons, Hashtable.findInBkt,
        Memory.load_of_live (live a List.mem_cons_self), Proc.ok_bind, toNext, Option.or_none]
      by_cases same : (content a).key = key
      · rw [if_pos (decided.mpr same), List.find?_cons_of_pos (by simpa using same)]
        rfl
      · rw [if_neg (mt decided.mp same), List.find?_cons_of_neg (by simpa using same)]
        exact ih (by simpa using enough) linked
          (fun b member => live b (List.mem_cons_of_mem a member))
          (fun b member => keyed b (List.mem_cons_of_mem a member))

theorem Valid.find_cases (valid : Valid hash self content addrs bound) (key : List UInt8) :
    (∃ a ∈ addrs, (content a).key = key ∧ self.find hash key = .ok (some a)) ∨
      (∀ a ∈ addrs, (content a).key ≠ key) ∧ self.find hash key = .ok none := by
  by_cases nonempty : addrs = []
  · subst nonempty
    exact .inr ⟨by simp, by simp [Hashtable.find, valid.head]⟩
  obtain ⟨tbl, chains, _, table, indexed⟩ := valid.table_eq nonempty
  have present : self.head ≠ none := by
    rw [valid.head]
    simpa using nonempty
  have spread := indexed.spread
  have inside : (hashToBkt (hash key) tbl.numBuckets).toNat < tbl.buckets.length := by
    rw [spread.length]
    exact hashToBkt_lt _ indexed.positive
  have member : ∀ i, ∀ a ∈ chains i, a ∈ addrs := fun i a there => ((indexed.members i a).mp there).1
  have found : self.find hash key = .ok
      ((chains (hashToBkt (hash key) tbl.numBuckets).toNat).find? fun a => (content a).key = key) := by
    simp only [Hashtable.find, present, ↓reduceIte, table, bucketAt_of_lt inside, Proc.ok_bind,
      spread.head _ _ (List.getElem?_eq_getElem inside)]
    exact findInBkt_spec key _
      (length_le_fresh (spread.distinct _) fun a there => valid.bounded a (member _ a there))
      (spread.linked _)
      (spread.live _) (fun a there => valid.keyed a (member _ a there))
  -- an element with the key is in the bucket that is searched
  have sameBucket : ∀ a ∈ addrs, (content a).key = key →
      a ∈ chains (hashToBkt (hash key) tbl.numBuckets).toNat := by
    intro a there same
    refine (indexed.members _ a).mpr ⟨there, ?_⟩
    rw [bucketOf, (valid.keyed a there).hashv, same]
  cases result : (chains (hashToBkt (hash key) tbl.numBuckets).toNat).find?
      fun a => (content a).key = key with
  | some a =>
      have same : (content a).key = key := by simpa using List.find?_some result
      exact .inl ⟨a, member _ a (List.mem_of_find?_eq_some result), same, by rw [found, result]⟩
  | none =>
      refine .inr ⟨fun a there same => ?_, by rw [found, result]⟩
      have absent := List.find?_eq_none.mp result a (sameBucket a there same)
      simp [same] at absent

/-- An element as `HASH_ADD_KEYPTR` fills it in. -/
def Item.filled (hash : List UInt8 → UInt32) (element : ε) (key : List UInt8) : Item ε :=
  ⟨element, key, UInt32.ofNat key.length, hash key⟩

theorem Item.filled_keyed (hash : List UInt8 → UInt32) (element : ε) {key : List UInt8}
    (short : key.length < 2 ^ 32) : (Item.filled hash element key).Keyed hash := ⟨rfl, rfl, short⟩

/-- The new element is the last one of the list, and not in a bucket yet. -/
structure Appended (memory after : Memory ε) (content : Nat → Item ε) (addrs : List Nat) (bound : Nat)
    (a head : Nat) (tbl : Table) (chains : Nat → List Nat) : Prop where
  item : after.item = memory.item
  fresh : after.fresh = memory.fresh
  linked : Linked after.next after.prev none (addrs ++ [a]) none
  head : (addrs ++ [a]).head? = some head
  tail : tbl.tail = a
  numItems : tbl.numItems = UInt32.ofNat addrs.length
  positive : 0 < tbl.numBuckets.toNat
  grown : tbl.numBuckets.toNat ≤ bound
  spread : Spread after content tbl.numBuckets tbl.buckets chains
  members : ∀ i b, b ∈ chains i ↔ b ∈ addrs ∧ bucketOf content tbl.numBuckets b = i

theorem Valid.addToList_spec (valid : Valid hash self content addrs bound) (granted : Nat → Bool)
    (memory : Memory ε) {a : Nat} {item : Item ε} (absent : a ∉ addrs)
    (items : memory.item = Function.update self.memory.item a (some item))
    (next : memory.next = self.memory.next) (prev : memory.prev = self.memory.prev)
    (hhNext : memory.hhNext = self.memory.hhNext) (hhPrev : memory.hhPrev = self.memory.hhPrev)
    (room : 32 ≤ bound) :
    self.addToList granted memory a = .error (.exit (-1)) ∧ Refused granted (32 * bound) ∨
      ∃ after head tbl chains, self.addToList granted memory a = .ok (after, head, tbl) ∧
        Appended memory after (Function.update content a item) addrs bound a head tbl chains := by
  have apart : ∀ b ∈ addrs, b ≠ a := fun b member same => absent (same ▸ member)
  have new : memory.item a = some item := by rw [items, Function.update_self]
  rcases List.eq_nil_or_concat addrs with rfl | ⟨front, last, rfl⟩
  · have head : self.head = none := valid.head
    simp only [Hashtable.addToList, head, Memory.setNext, Memory.setPrev, Memory.load, new,
      Proc.ok_bind, Proc.pure_eq_ok, makeTable]
    split
    · refine .inr ⟨_, _, _, fun _ => [], rfl, rfl, rfl, ?_, rfl, rfl, rfl, by simp, room, ?_, by simp⟩
      · exact ⟨Function.update_self .., Function.update_self .., trivial⟩
      · exact Spread.empty _ _ 32
    · rename_i refused
      refine .inl ⟨rfl, ?_⟩
      simp only [not_and_or, Bool.not_eq_true, sizeofTable, sizeofBucket] at refused
      rcases refused with table | buckets
      · exact ⟨_, by omega, table⟩
      · exact ⟨_, by omega, buckets⟩
  · rw [List.concat_eq_append] at valid absent apart ⊢
    obtain ⟨tbl, chains, _, table, indexed⟩ := valid.table_eq (by simp)
    have isTail : tbl.tail = last := by
      have tail := indexed.tail
      rw [List.getLast?_concat] at tail
      exact (Option.some.inj tail).symm
    have lastLive : memory.item last = some (content last) := by
      rw [items, Function.update_of_ne (apart last (by simp))]
      exact valid.live last (by simp)
    obtain ⟨first, isHead⟩ : ∃ first, (front ++ [last]).head? = some first :=
      Option.isSome_iff_exists.mp (by simp)
    have head : self.head = some first := valid.head.trans isHead
    have inList : ∀ i, ∀ b ∈ chains i, b ∈ front ++ [last] := fun i b there =>
      ((indexed.members i b).mp there).1
    simp only [Hashtable.addToList, head, table, Hashtable.appendList, Memory.setNext,
      Memory.setPrev, Memory.load, new, isTail, lastLive, Proc.ok_bind, Proc.pure_eq_ok]
    refine .inr ⟨_, _, _, chains, rfl, rfl, rfl, ?_, ?_, rfl, indexed.numItems, indexed.positive,
      indexed.grown, ?_, ?_⟩
    · simp only [next, prev]
      exact valid.linked.pushBack valid.distinct absent
    · rw [List.head?_append, isHead, Option.some_or]
    · refine indexed.spread.transfer _ (fun i b there => ?_) (fun i b there => ?_) hhNext hhPrev
      · have other := apart b (inList i b there)
        rw [items, Function.update_of_ne other]
        exact valid.live b (inList i b there)
      · exact Function.update_of_ne (apart b (inList i b there)) ..
    · intro i b
      rw [indexed.members i b, and_congr_right_iff]
      intro member
      rw [bucketOf, bucketOf, Function.update_of_ne (apart b member)]

section Adding

variable {memory after : Memory ε} {a head : Nat} {added : Item ε} {tbl tbl' : Table}
  {chains chains' : Nat → List Nat}

theorem Appended.indexed
    (appended : Appended memory after (Function.update content a added) addrs bound a head tbl chains)
    {settled : Memory ε}
    (step : Settled after settled { tbl with numItems := tbl.numItems + 1 } tbl'
      (Function.update content a added) (fun b => b = a ∨ ∃ i, b ∈ chains i) chains') :
    Indexed settled (Function.update content a added) (addrs ++ [a]) (2 * bound) tbl' chains' where
  tail := by rw [List.getLast?_concat, step.tail, ← appended.tail]
  numItems := by
    rw [step.numItems, List.length_append, List.length_singleton, UInt32.ofNat_add]
    exact congrArg (· + 1) appended.numItems
  positive := step.positive
  grown := Nat.le_trans step.grown (Nat.mul_le_mul_left 2 appended.grown)
  spread := step.spread
  members i b := by
    have member : (b = a ∨ ∃ i, b ∈ chains i) ↔ b ∈ addrs ++ [a] := by
      simp only [appended.members, List.mem_append, List.mem_singleton, exists_and_left, exists_eq',
        and_true]
      exact or_comm
    exact (step.members i b).trans (and_congr_left' member)

theorem Valid.snoc (valid : Valid hash self content addrs bound) (absent : a ∉ addrs)
    (below : a < self.memory.fresh) (keyed : added.Keyed hash)
    (items : after.item = Function.update self.memory.item a (some added))
    (fresh : after.fresh = self.memory.fresh)
    (linked : Linked after.next after.prev none (addrs ++ [a]) none)
    (first : (addrs ++ [a]).head? = some head)
    (indexed : Indexed after (Function.update content a added) (addrs ++ [a]) bound tbl chains) :
    Valid hash ⟨after, some head, some tbl⟩ (Function.update content a added) (addrs ++ [a])
      bound := by
  have apart : ∀ b ∈ addrs, b ≠ a := fun b member same => absent (same ▸ member)
  refine ⟨first.symm, linked, ?_, ?_, ?_, ?_, fun _ => ⟨tbl, chains, rfl, indexed⟩⟩
  · exact List.nodup_append.mpr ⟨valid.distinct, List.nodup_singleton a,
      fun b old c last same => apart b old (same.trans (List.mem_singleton.mp last))⟩
  · intro b there
    change after.item b = _
    rw [items]
    rcases List.mem_append.mp there with old | last
    · rw [Function.update_of_ne (apart b old), Function.update_of_ne (apart b old)]
      exact valid.live b old
    · rw [List.mem_singleton.mp last, Function.update_self, Function.update_self]
  · intro b there
    change b < after.fresh
    rw [fresh]
    rcases List.mem_append.mp there with old | last
    · exact valid.bounded b old
    · exact List.mem_singleton.mp last ▸ below
  · intro b there
    rcases List.mem_append.mp there with old | last
    · rw [Function.update_of_ne (apart b old)]
      exact valid.keyed b old
    · rw [List.mem_singleton.mp last, Function.update_self]
      exact keyed

theorem Valid.addToBkt_appended (valid : Valid hash self content addrs bound) {granted : Nat → Bool}
    (limit : ∀ size, 2 ^ 36 ≤ size → granted size = false) (below : a < self.memory.fresh)
    (absent : a ∉ addrs)
    (appended : Appended memory after (Function.update content a added) addrs bound a head tbl chains)
    (items : memory.item = Function.update self.memory.item a (some added))
    (fresh : memory.fresh = self.memory.fresh) :
    addToBkt granted after { tbl with numItems := tbl.numItems + 1 }
          (hashToBkt added.hashv tbl.numBuckets) a = .error (.exit (-1)) ∧
        Refused granted (32 * bound) ∨
      ∃ settled tbl' chains',
        addToBkt granted after { tbl with numItems := tbl.numItems + 1 }
          (hashToBkt added.hashv tbl.numBuckets) a = .ok (settled, tbl') ∧
        Settled after settled { tbl with numItems := tbl.numItems + 1 } tbl'
          (Function.update content a added) (fun b => b = a ∨ ∃ i, b ∈ chains i) chains' := by
  have inList : ∀ i, ∀ b ∈ chains i, b ∈ addrs := fun i b there =>
    ((appended.members i b).mp there).1
  have same : after.fresh = self.memory.fresh := appended.fresh.trans fresh
  have live : after.item a = some (Function.update content a added a) := by
    rw [appended.item, items, Function.update_self, Function.update_self]
  have step := addToBkt_spec limit { tbl with numItems := tbl.numItems + 1 } appended.positive
    appended.spread
    (fun i b there => same ▸ valid.bounded b (inList i b there)) live (same ▸ below)
    (fun i there => absent (inList i a there))
  rw [Function.update_self] at step
  obtain ⟨exited, size, small, refused⟩ | settled := step
  · exact .inl ⟨exited, size, Nat.le_trans small (Nat.mul_le_mul_left 32 appended.grown), refused⟩
  · exact .inr settled

end Adding

/-- `HASH_ADD_KEYPTR` of an element that is in memory but not in the table. -/
theorem Valid.addKeyptr_spec (valid : Valid hash self content addrs bound) {granted : Nat → Bool}
    (limit : ∀ size, 2 ^ 36 ≤ size → granted size = false) {a : Nat} {item : Item ε}
    (live : self.memory.item a = some item) (below : a < self.memory.fresh) (absent : a ∉ addrs)
    {key : List UInt8} (short : key.length < 2 ^ 32) (room : 32 ≤ bound) :
    let added := Item.filled hash item.element key
    self.addKeyptr hash granted key a = .error (.exit (-1)) ∧ Refused granted (32 * bound) ∨
      ∃ after, self.addKeyptr hash granted key a = .ok after ∧
        after.memory.item = Function.update self.memory.item a (some added) ∧
        after.memory.fresh = self.memory.fresh ∧
        Valid hash after (Function.update content a added) (addrs ++ [a]) (2 * bound) := by
  intro added
  have filled : self.memory.setKey a (hash key) key =
      .ok { self.memory with item := Function.update self.memory.item a (some added) } := by
    simp only [Memory.setKey, Memory.load_of_live live, Proc.ok_bind, Proc.pure_eq_ok]
    rfl
  rcases valid.addToList_spec granted
      { self.memory with item := Function.update self.memory.item a (some added) } absent
      rfl rfl rfl rfl rfl room with
    ⟨exited, refused⟩ | ⟨between, head, tbl, chains, listed, appended⟩
  · refine .inl ⟨?_, refused⟩
    simp only [Hashtable.addKeyptr, filled, exited, Proc.ok_bind, Proc.error_bind]
  rcases valid.addToBkt_appended limit below absent appended rfl rfl with
    ⟨exited, refused⟩ | ⟨after, tbl', chains', done, settled⟩
  · refine .inl ⟨?_, refused⟩
    simp only [Hashtable.addKeyptr, filled, listed, Proc.ok_bind]
    rw [show hash key = added.hashv from rfl, exited]
    rfl
  have items := settled.item.trans appended.item
  have fresh := settled.fresh.trans appended.fresh
  have linked : Linked after.next after.prev none (addrs ++ [a]) none := by
    rw [settled.next, settled.prev]
    exact appended.linked
  have larger := valid.grow (show bound ≤ 2 * bound by omega)
  refine .inr ⟨⟨after, some head, some tbl'⟩, ?_, items, fresh,
    larger.snoc absent below (Item.filled_keyed hash item.element short) items fresh linked
      appended.head (appended.indexed settled)⟩
  simp only [Hashtable.addKeyptr, filled, listed, Proc.ok_bind]
  rw [show hash key = added.hashv from rfl, done]
  rfl

section Writes

variable (memory : Memory ε) {target : Option Nat}
  (live : ∀ address ∈ target, memory.item address = some (content address)) (pointer : Option Nat)
include live

theorem unlessNull_setNext :
    memory.unlessNull target (fun address => memory.setNext address pointer) =
      .ok { memory with next := relink memory.next target pointer } := by
  cases target with
  | none => rfl
  | some address => simp only [Memory.unlessNull, Memory.setNext, Memory.load, live address rfl,
      Proc.ok_bind, Proc.pure_eq_ok, relink]

theorem unlessNull_setPrev :
    memory.unlessNull target (fun address => memory.setPrev address pointer) =
      .ok { memory with prev := relink memory.prev target pointer } := by
  cases target with
  | none => rfl
  | some address => simp only [Memory.unlessNull, Memory.setPrev, Memory.load, live address rfl,
      Proc.ok_bind, Proc.pure_eq_ok, relink]

theorem unlessNull_setHhNext :
    memory.unlessNull target (fun address => memory.setHhNext address pointer) =
      .ok { memory with hhNext := relink memory.hhNext target pointer } := by
  cases target with
  | none => rfl
  | some address => simp only [Memory.unlessNull, Memory.setHhNext, Memory.load, live address rfl,
      Proc.ok_bind, Proc.pure_eq_ok, relink]

theorem unlessNull_setHhPrev :
    memory.unlessNull target (fun address => memory.setHhPrev address pointer) =
      .ok { memory with hhPrev := relink memory.hhPrev target pointer } := by
  cases target with
  | none => rfl
  | some address => simp only [Memory.unlessNull, Memory.setHhPrev, Memory.load, live address rfl,
      Proc.ok_bind, Proc.pure_eq_ok, relink]

end Writes

theorem erase_middle {front back : List Nat} {a : Nat} (distinct : (front ++ a :: back).Nodup) :
    (front ++ a :: back).erase a = front ++ back := by
  obtain ⟨_, _, separate⟩ := List.nodup_append.mp distinct
  rw [List.erase_append_right, List.erase_cons_head]
  exact fun member => separate a member a List.mem_cons_self rfl

theorem delInBkt_spec {memory : Memory ε} {numBkts : UInt32} {buckets : List Bucket}
    {chains : Nat → List Nat} (spread : Spread memory content numBkts buckets chains) {a : Nat}
    {bkt : UInt32} (inside : bkt.toNat < buckets.length) (there : a ∈ chains bkt.toNat) :
    ∃ buckets' chains',
      Hashtable.delInBkt memory buckets bkt a = .ok (unlinked memory a, buckets') ∧
      Spread (unlinked memory a) content numBkts buckets' chains' ∧
      ∀ i b, b ∈ chains' i ↔ b ∈ chains i ∧ b ≠ a := by
  obtain ⟨front, back, chain⟩ := List.append_of_mem there
  have read := List.getElem?_eq_getElem inside
  have linked := spread.linked bkt.toNat
  have distinct := spread.distinct bkt.toNat
  have live := spread.live bkt.toNat
  rw [chain] at linked distinct live
  obtain ⟨toPrev, toNext⟩ := linked.at
  rw [Option.or_none] at toPrev toNext
  have livePrev : ∀ b ∈ memory.hhPrev a, memory.item b = some (content b) := fun b member =>
    live b (List.mem_append_left _ (List.mem_of_getLast? (toPrev ▸ member)))
  have liveNext : ∀ b ∈ memory.hhNext a, memory.item b = some (content b) := fun b member =>
    live b (List.mem_append_right _ (List.mem_cons_of_mem a (List.mem_of_mem_head? (toNext ▸ member))))
  refine ⟨_, _, ?_, spread.remove chain read, ?_⟩
  · simp only [Hashtable.delInBkt, bucketAt_of_lt inside, unlessNull_setHhNext memory livePrev,
      Proc.ok_bind, Proc.pure_eq_ok]
    rw [unlessNull_setHhPrev
      { memory with hhNext := relink memory.hhNext (memory.hhPrev a) (memory.hhNext a) } liveNext]
    rfl
  · intro i b
    by_cases here : i = bkt.toNat
    · subst here
      rw [Function.update_self, chain, ← erase_middle distinct, distinct.mem_erase_iff, and_comm]
    · rw [Function.update_of_ne here]
      have other : b ∈ chains i → b ≠ a := fun member same =>
        here (spread.apart (same ▸ member) there)
      exact ⟨fun member => ⟨member, other member⟩, And.left⟩

def unlisted (memory : Memory ε) (del : Nat) : Memory ε :=
  { memory with
    next := relink memory.next (memory.prev del) (memory.next del)
    prev := relink memory.prev (memory.next del) (memory.prev del) }

section Deleting

variable {front back : List Nat} {a : Nat}

theorem Valid.neighbours (valid : Valid hash self content (front ++ a :: back) bound) :
    self.memory.prev a = front.getLast? ∧ self.memory.next a = back.head? := by
  obtain ⟨toPrev, toNext⟩ := valid.linked.at
  rw [Option.or_none] at toPrev toNext
  exact ⟨toPrev, toNext⟩

theorem Valid.live_prev (valid : Valid hash self content (front ++ a :: back) bound) :
    ∀ b ∈ self.memory.prev a, self.memory.item b = some (content b) := by
  intro b member
  rw [valid.neighbours.1] at member
  exact valid.live b (List.mem_append_left _ (List.mem_of_getLast? member))

theorem Valid.live_next (valid : Valid hash self content (front ++ a :: back) bound) :
    ∀ b ∈ self.memory.next a, self.memory.item b = some (content b) := by
  intro b member
  rw [valid.neighbours.2] at member
  exact valid.live b
    (List.mem_append_right _ (List.mem_cons_of_mem a (List.mem_of_mem_head? member)))

/-- The head moves on only if there is nothing before the element. -/
theorem head_without (front back : List Nat) (a : Nat) :
    (if front.getLast? = none then back.head? else (front ++ a :: back).head?) =
      (front ++ back).head? := by
  cases front with
  | nil => rfl
  | cons first front => simp

/-- The tail moves back only if it is the element. -/
theorem tail_without (distinct : (front ++ a :: back).Nodup) {tail : Nat}
    (isTail : (front ++ a :: back).getLast? = some tail) (others : front ++ back ≠ []) :
    (front ++ back).getLast? = some (if a = tail then front.getLast?.getD a else tail) := by
  cases back using List.reverseRecOn with
  | nil =>
      rw [List.getLast?_concat, Option.some.injEq] at isTail
      rw [List.append_nil] at others ⊢
      obtain ⟨last, isLast⟩ := Option.ne_none_iff_exists'.mp (mt List.getLast?_eq_none_iff.mp others)
      rw [if_pos isTail, isLast, Option.getD_some]
  | append_singleton back last =>
      rw [← List.cons_append, ← List.append_assoc, List.getLast?_concat, Option.some.injEq] at isTail
      have other : a ≠ tail := by
        rintro rfl
        obtain ⟨-, distinct, -⟩ := List.nodup_append.mp distinct
        exact (List.nodup_cons.mp distinct).1 (by simp [isTail])
      rw [if_neg other, ← List.append_assoc, List.getLast?_concat, isTail]

theorem Indexed.without {memory after : Memory ε} {tbl : Table} {chains chains' : Nat → List Nat}
    {buckets : List Bucket} (indexed : Indexed memory content (front ++ a :: back) bound tbl chains)
    (distinct : (front ++ a :: back).Nodup) (others : front ++ back ≠ [])
    (spread : Spread after content tbl.numBuckets buckets chains')
    (members : ∀ i b, b ∈ chains' i ↔ b ∈ chains i ∧ b ≠ a) :
    Indexed after content (front ++ back) bound
      { tbl with
        buckets := buckets
        tail := if a = tbl.tail then front.getLast?.getD a else tbl.tail
        numItems := tbl.numItems - 1 } chains' where
  tail := tail_without distinct indexed.tail others
  numItems := by
    change tbl.numItems - 1 = _
    rw [indexed.numItems, ofNat_length_middle]
  positive := indexed.positive
  grown := indexed.grown
  spread := spread
  members i b := by
    rw [members, indexed.members, ← erase_middle distinct, distinct.mem_erase_iff]
    tauto

theorem Valid.without (valid : Valid hash self content (front ++ a :: back) bound) {tbl : Table}
    {chains : Nat → List Nat}
    (indexed : Indexed (unlinked (unlisted self.memory a) a) content (front ++ back) bound tbl chains) :
    Valid hash ⟨unlinked (unlisted self.memory a) a,
      if self.memory.prev a = none then self.memory.next a else self.head, some tbl⟩ content
      (front ++ back) bound := by
  have distinct := valid.distinct
  have kept : ∀ b ∈ front ++ back, b ∈ front ++ a :: back := fun b member => by
    rw [← erase_middle distinct] at member
    exact List.mem_of_mem_erase member
  refine ⟨?_, valid.linked.unlink distinct, ?_, fun b member => valid.live b (kept b member),
    fun b member => valid.bounded b (kept b member), fun b member => valid.keyed b (kept b member),
    fun _ => ⟨tbl, chains, rfl, indexed⟩⟩
  · rw [← head_without front back a, valid.neighbours.1, valid.neighbours.2, valid.head]
  · rw [← erase_middle distinct]
    exact distinct.erase a

theorem Valid.delete_among (valid : Valid hash self content (front ++ a :: back) bound)
    (others : front ++ back ≠ []) :
    ∃ after, self.delete a = .ok after ∧ after.memory.item = self.memory.item ∧
      after.memory.fresh = self.memory.fresh ∧ Valid hash after content (front ++ back) bound := by
  have there : a ∈ front ++ a :: back := by simp
  obtain ⟨tbl, chains, _, table, indexed⟩ := valid.table_eq (List.ne_nil_of_mem there)
  have load := Memory.load_of_live (valid.live a there)
  have among : ¬ (self.memory.prev a = none ∧ self.memory.next a = none) := by
    rw [valid.neighbours.1, valid.neighbours.2, List.getLast?_eq_none_iff, List.head?_eq_none_iff]
    exact fun alone => others (by simp [alone])
  have home : a ∈ chains (bucketOf content tbl.numBuckets a) :=
    (indexed.members _ a).mpr ⟨there, rfl⟩
  have inside : bucketOf content tbl.numBuckets a < tbl.buckets.length := by
    rw [indexed.spread.length]
    exact hashToBkt_lt _ indexed.positive
  have listed := indexed.spread.transfer (unlisted self.memory a) indexed.spread.live
    (fun _ _ _ => rfl) rfl rfl
  obtain ⟨buckets, chains', deleted, spread, members⟩ := delInBkt_spec listed inside home
  rw [unlisted] at deleted
  have kept := valid.without (indexed.without valid.distinct others spread members)
  refine ⟨_, ?_, ?_, ?_, kept⟩
  · simp only [Hashtable.delete, load, table, Proc.ok_bind, if_neg among,
      unlessNull_setNext self.memory valid.live_prev]
    rw [unlessNull_setPrev { self.memory with
      next := relink self.memory.next (self.memory.prev a) (self.memory.next a) } valid.live_next]
    simp only [Proc.ok_bind, deleted, Proc.pure_eq_ok]
    rw [← valid.neighbours.1]
    rfl
  · rfl
  · rfl

theorem Valid.delete_alone (valid : Valid hash self content [a] bound) :
    self.delete a = .ok ⟨self.memory, none, none⟩ := by
  obtain ⟨tbl, chains, _, table, -⟩ := valid.table_eq (List.cons_ne_nil a [])
  have load := Memory.load_of_live (valid.live a List.mem_cons_self)
  have alone : self.memory.prev a = none ∧ self.memory.next a = none :=
    @Valid.neighbours ε hash content bound self [] [] a valid
  simp only [Hashtable.delete, load, table, Proc.ok_bind, if_pos alone, Proc.pure_eq_ok]

/-- `HASH_DELETE` takes an element out of both lists, and leaves it in memory. -/
theorem Valid.delete_spec (valid : Valid hash self content addrs bound) (there : a ∈ addrs) :
    ∃ after, self.delete a = .ok after ∧ after.memory.item = self.memory.item ∧
      after.memory.fresh = self.memory.fresh ∧ Valid hash after content (addrs.erase a) bound := by
  obtain ⟨front, back, rfl⟩ := List.append_of_mem there
  rw [erase_middle valid.distinct]
  by_cases others : front ++ back = []
  · obtain ⟨rfl, rfl⟩ := List.append_eq_nil_iff.mp others
    exact ⟨_, valid.delete_alone, rfl, rfl, Valid.empty ..⟩
  · exact valid.delete_among others

end Deleting

theorem Valid.transfer (valid : Valid hash self content addrs bound) (memory : Memory ε)
    (next : memory.next = self.memory.next) (prev : memory.prev = self.memory.prev)
    (hhNext : memory.hhNext = self.memory.hhNext) (hhPrev : memory.hhPrev = self.memory.hhPrev)
    (items : ∀ a ∈ addrs, memory.item a = self.memory.item a)
    (fresh : self.memory.fresh ≤ memory.fresh) :
    Valid hash ⟨memory, self.head, self.tbl⟩ content addrs bound where
  head := valid.head
  linked := by
    rw [next, prev]
    exact valid.linked
  distinct := valid.distinct
  live a member := by
    rw [items a member]
    exact valid.live a member
  bounded a member := Nat.lt_of_lt_of_le (valid.bounded a member) fresh
  keyed := valid.keyed
  indexed nonempty := by
    obtain ⟨tbl, chains, present, indexed⟩ := valid.indexed nonempty
    refine ⟨tbl, chains, present, { indexed with spread := ?_ }⟩
    refine indexed.spread.transfer memory (fun i a there => ?_) (fun _ _ _ => rfl) hhNext hhPrev
    have member := ((indexed.members i a).mp there).1
    rw [items a member]
    exact valid.live a member

theorem Valid.malloc (valid : Valid hash self content addrs bound) (element : ε) :
    Valid hash ⟨(self.memory.malloc element).1, self.head, self.tbl⟩ content addrs bound :=
  valid.transfer _ rfl rfl rfl rfl
    (fun a member => Function.update_of_ne (Nat.ne_of_lt (valid.bounded a member)) ..)
    (Nat.le_succ _)

theorem Valid.free (valid : Valid hash self content addrs bound) {a : Nat} {item : Item ε}
    (live : self.memory.item a = some item) (absent : a ∉ addrs) :
    ∃ memory, self.memory.free a = .ok memory ∧
      memory.item = Function.update self.memory.item a none ∧
      Valid hash ⟨memory, self.head, self.tbl⟩ content addrs bound := by
  refine ⟨{ self.memory with item := Function.update self.memory.item a none }, ?_, rfl, ?_⟩
  · simp only [Memory.free, Memory.load_of_live live, Proc.ok_bind, Proc.pure_eq_ok]
  · refine valid.transfer _ rfl rfl rfl rfl (fun b member => ?_) (Nat.le_refl _)
    have other : b ≠ a := fun same => absent (same ▸ member)
    exact Function.update_of_ne other ..

theorem Valid.count_eq (valid : Valid hash self content addrs bound) :
    self.count = .ok (UInt32.ofNat addrs.length) := by
  by_cases nonempty : addrs = []
  · subst nonempty
    simp [Hashtable.count, valid.head]
  · obtain ⟨tbl, chains, _, table, indexed⟩ := valid.table_eq nonempty
    have present : self.head ≠ none := by
      rw [valid.head]
      simpa using nonempty
    simp only [Hashtable.count, present, ↓reduceIte, table, Proc.ok_bind, Proc.pure_eq_ok,
      indexed.numItems]

end LibNrm.Uthash
