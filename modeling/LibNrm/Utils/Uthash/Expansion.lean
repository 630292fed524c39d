import LibNrm.Utils.Uthash.Buckets

namespace LibNrm.Uthash

open Data

/-! `HASH_EXPAND_BUCKETS` takes the elements out of the old chains one by one and puts
each at the front of a new one.  While it walks along an old chain the pointers of
the part behind it are as they were, because only elements already moved are
written to.
-/

variable {ε : Type} {content : Nat → Item ε} {numBkts : UInt32}

def bucketOf (content : Nat → Item ε) (numBkts : UInt32) (a : Nat) : Nat :=
  (hashToBkt (content a).hashv numBkts).toNat

/-- Elements have been moved into the chains, and nothing else was written to. -/
structure Moved (content : Nat → Item ε) (numBkts : UInt32) (memory after : Memory ε)
    (chains chains' : Nat → List Nat) (moved : List Nat) : Prop where
  item : after.item = memory.item
  next : after.next = memory.next
  prev : after.prev = memory.prev
  fresh : after.fresh = memory.fresh
  members : ∀ i a, a ∈ chains' i ↔ a ∈ chains i ∨ a ∈ moved ∧ bucketOf content numBkts a = i
  untouched : ∀ a, a ∉ moved → (∀ j, a ∉ chains j) →
    after.hhNext a = memory.hhNext a ∧ after.hhPrev a = memory.hhPrev a

theorem Moved.nothing (content : Nat → Item ε) (numBkts : UInt32) (memory : Memory ε)
    (chains : Nat → List Nat) : Moved content numBkts memory memory chains chains [] where
  item := rfl
  next := rfl
  prev := rfl
  fresh := rfl
  members i a := by simp
  untouched a _ _ := ⟨rfl, rfl⟩

theorem Moved.trans {memory between after : Memory ε} {chains chains' chains'' : Nat → List Nat}
    {first second : List Nat} (one : Moved content numBkts memory between chains chains' first)
    (two : Moved content numBkts between after chains' chains'' second) :
    Moved content numBkts memory after chains chains'' (first ++ second) where
  item := two.item.trans one.item
  next := two.next.trans one.next
  prev := two.prev.trans one.prev
  fresh := two.fresh.trans one.fresh
  members i a := by
    rw [two.members, one.members, List.mem_append, or_assoc, or_and_right]
  untouched a outside absent := by
    rw [List.mem_append, not_or] at outside
    have still : ∀ j, a ∉ chains' j := by
      intro j member
      rcases (one.members j a).mp member with old | new
      · exact absent j old
      · exact outside.1 new.1
    have before := one.untouched a outside.1 absent
    have later := two.untouched a outside.2 still
    exact ⟨later.1.trans before.1, later.2.trans before.2⟩

theorem Spread.moved {memory : Memory ε} {buckets : List Bucket} {chains : Nat → List Nat}
    (spread : Spread memory content numBkts buckets chains) {a : Nat} {bucket : Bucket}
    (read : buckets[bucketOf content numBkts a]? = some bucket) :
    Moved content numBkts memory (linkedFront memory bucket.hhHead a) chains
      (Function.update chains (bucketOf content numBkts a)
        (a :: chains (bucketOf content numBkts a))) [a] where
  item := rfl
  next := rfl
  prev := rfl
  fresh := rfl
  members i b := by
    by_cases here : i = bucketOf content numBkts a
    · subst here
      rw [Function.update_self, List.mem_cons, List.mem_singleton]
      constructor
      · intro member
        rcases member with rfl | old
        · exact .inr ⟨rfl, rfl⟩
        · exact .inl old
      · intro member
        rcases member with old | new
        · exact .inr old
        · exact .inl new.1
    · rw [Function.update_of_ne here, List.mem_singleton]
      constructor
      · exact .inl
      · intro member
        rcases member with old | ⟨rfl, same⟩
        · exact old
        · exact absurd same.symm here
  untouched b outside absent :=
    spread.linkedFront_frame read (by simpa using outside) (absent _)

theorem expandChain_spec (positive : 0 < numBkts.toNat) (ideal : UInt32) (rest : List Nat)
    {memory : Memory ε} {buckets : List Bucket} {chains : Nat → List Nat} {before : Option Nat}
    {fuel : Nat} (nonideal : UInt32) (enough : rest.length ≤ fuel)
    (spread : Spread memory content numBkts buckets chains)
    (linked : Linked memory.hhNext memory.hhPrev before rest none) (distinct : rest.Nodup)
    (live : ∀ a ∈ rest, memory.item a = some (content a))
    (separate : ∀ a ∈ rest, ∀ j, a ∉ chains j) :
    ∃ after buckets' nonideal' chains',
      expandChain numBkts ideal fuel (memory, buckets, nonideal) rest.head? =
        .ok (after, buckets', nonideal') ∧
      Spread after content numBkts buckets' chains' ∧
      Moved content numBkts memory after chains chains' rest := by
  induction rest generalizing memory buckets chains before fuel nonideal with
  | nil =>
      refine ⟨memory, buckets, nonideal, chains, ?_, spread, .nothing ..⟩
      rw [List.head?_nil, expandChain]
  | cons a rest ih =>
      obtain ⟨fuel, rfl⟩ : ∃ less, fuel = less + 1 := ⟨fuel - 1, by simp at enough; omega⟩
      obtain ⟨_, toNext, linked⟩ := linked
      obtain ⟨notLater, distinct⟩ := List.nodup_cons.mp distinct
      have here := live a List.mem_cons_self
      have fresh := separate a List.mem_cons_self
      have inside : bucketOf content numBkts a < buckets.length := by
        rw [spread.length]
        exact hashToBkt_lt _ positive
      have read := List.getElem?_eq_getElem inside
      have bucket : bucketAt buckets (hashToBkt (content a).hashv numBkts) =
          .ok (buckets[bucketOf content numBkts a]) := bucketAt_of_lt inside
      have link := linkFront_of_live here (spread.head_live read)
      have pushed := spread.push here fresh rfl read
      have moved := spread.moved read
      -- the elements still to come have not been written to
      have outside : ∀ b ∈ rest, b ∉ [a] := by
        intro b member same
        exact notLater (List.mem_singleton.mp same ▸ member)
      have absent : ∀ b ∈ rest, ∀ j, b ∉ chains j := fun b member =>
        separate b (List.mem_cons_of_mem a member)
      have ahead := linked.congr
        (fun b member => (moved.untouched b (outside b member) (absent b member)).1)
        (fun b member => (moved.untouched b (outside b member) (absent b member)).2)
      have still : ∀ b ∈ rest, ∀ j, b ∉ Function.update chains (bucketOf content numBkts a)
          (a :: chains (bucketOf content numBkts a)) j := by
        intro b member j there
        rcases (moved.members j b).mp there with old | new
        · exact absent b member j old
        · exact outside b member new.1
      simp only [List.head?_cons, expandChain, Memory.load_of_live here, bucket, link, toNext,
        Option.or_none, Proc.ok_bind]
      obtain ⟨after, buckets', nonideal', chains', done, spread', later⟩ :=
        ih _ (by simpa using enough) (pushed _) ahead distinct
          (fun b member => live b (List.mem_cons_of_mem a member)) still
      exact ⟨after, buckets', nonideal', chains', done, spread', moved.trans later⟩

theorem expandAll_spec (positive : 0 < numBkts.toNat) (ideal : UInt32) (fuel : Nat)
    {oldBuckets : List Bucket} {olds : List (List Nat)}
    (heads : List.Forall₂ (fun bucket chain => bucket.hhHead = chain.head?) oldBuckets olds)
    {memory : Memory ε} {buckets : List Bucket} {chains : Nat → List Nat} (nonideal : UInt32)
    (short : ∀ chain ∈ olds, chain.length ≤ fuel)
    (spread : Spread memory content numBkts buckets chains)
    (linked : ∀ chain ∈ olds, Linked memory.hhNext memory.hhPrev none chain none)
    (distinct : olds.flatten.Nodup)
    (live : ∀ a ∈ olds.flatten, memory.item a = some (content a))
    (separate : ∀ a ∈ olds.flatten, ∀ j, a ∉ chains j) :
    ∃ after buckets' nonideal' chains',
      oldBuckets.foldlM
          (fun state bucket => expandChain numBkts ideal fuel state bucket.hhHead)
          (memory, buckets, nonideal) = .ok (after, buckets', nonideal') ∧
      Spread after content numBkts buckets' chains' ∧
      Moved content numBkts memory after chains chains' olds.flatten := by
  induction heads generalizing memory buckets chains nonideal with
  | nil => exact ⟨memory, buckets, nonideal, chains, rfl, spread, .nothing ..⟩
  | @cons bucket chain oldBuckets olds head _ ih =>
      rw [List.flatten_cons] at distinct live separate
      obtain ⟨distinctHere, distinctLater, across⟩ := List.nodup_append.mp distinct
      have early : ∀ a ∈ chain, a ∈ chain ++ olds.flatten := fun a => List.mem_append_left _
      have late : ∀ a ∈ olds.flatten, a ∈ chain ++ olds.flatten := fun a => List.mem_append_right _
      obtain ⟨between, buckets', nonideal', chains', first, spread', moved⟩ :=
        expandChain_spec positive ideal chain nonideal (short chain List.mem_cons_self) spread
          (linked chain List.mem_cons_self) distinctHere
          (fun a member => live a (early a member)) (fun a member => separate a (early a member))
      have outside : ∀ a ∈ olds.flatten, a ∉ chain := fun a member here => across a here a member rfl
      have untouched := fun a member =>
        moved.untouched a (outside a member) (separate a (late a member))
      have still : ∀ a ∈ olds.flatten, ∀ j, a ∉ chains' j := by
        intro a member j there
        rcases (moved.members j a).mp there with old | new
        · exact separate a (late a member) j old
        · exact outside a member new.1
      have ahead : ∀ other ∈ olds, Linked between.hhNext between.hhPrev none other none := by
        intro other member
        have inside : ∀ a ∈ other, a ∈ olds.flatten := fun a there =>
          List.mem_flatten.mpr ⟨other, member, there⟩
        exact (linked other (List.mem_cons_of_mem chain member)).congr
          (fun a there => (untouched a (inside a there)).1)
          (fun a there => (untouched a (inside a there)).2)
      obtain ⟨after, buckets'', nonideal'', chains'', rest, spread'', moved'⟩ :=
        ih nonideal' (fun other member => short other (List.mem_cons_of_mem chain member)) spread'
          ahead distinctLater
          (fun a member => by rw [moved.item]; exact live a (late a member)) still
      refine ⟨after, buckets'', nonideal'', chains'', ?_, spread'', ?_⟩
      · rw [List.foldlM_cons, head, first, Proc.ok_bind, rest]
      · rw [List.flatten_cons]
        exact moved.trans moved'

theorem Spread.empty (memory : Memory ε) (content : Nat → Item ε) (numBkts : UInt32) :
    Spread memory content numBkts (List.replicate numBkts.toNat ⟨none, 0, 0⟩) fun _ => [] where
  length := List.length_replicate
  live _ _ member := nomatch member
  home _ _ member := nomatch member
  distinct _ := List.nodup_nil
  linked _ := trivial
  head i bucket read := by
    rw [List.eq_of_mem_replicate (List.mem_of_getElem? read)]
    rfl
  count i bucket read := by
    rw [List.eq_of_mem_replicate (List.mem_of_getElem? read)]
    rfl

section Old

variable {memory : Memory ε} {buckets : List Bucket} {chains : Nat → List Nat}

/-- The chains in the order of their buckets. -/
def chainList (chains : Nat → List Nat) (buckets : List Bucket) : List (List Nat) :=
  (List.range buckets.length).map chains

theorem Spread.heads (spread : Spread memory content numBkts buckets chains) :
    List.Forall₂ (fun bucket chain => bucket.hhHead = chain.head?) buckets
      (chainList chains buckets) := by
  rw [List.forall₂_iff_get]
  refine ⟨by simp [chainList], fun i first second => ?_⟩
  simp only [chainList, List.get_eq_getElem, List.getElem_map, List.getElem_range]
  exact spread.head i buckets[i] (List.getElem?_eq_getElem first)

theorem Spread.flatten_nodup (spread : Spread memory content numBkts buckets chains) :
    (chainList chains buckets).flatten.Nodup := by
  rw [List.nodup_flatten, chainList]
  constructor
  · intro chain member
    obtain ⟨i, _, rfl⟩ := List.mem_map.mp member
    exact spread.distinct i
  · refine List.pairwise_map.mpr (List.nodup_range.imp fun different => ?_)
    intro a here there
    exact different (spread.apart here there)

theorem Spread.mem_flatten (spread : Spread memory content numBkts buckets chains)
    (positive : 0 < numBkts.toNat) (a : Nat) :
    a ∈ (chainList chains buckets).flatten ↔ ∃ i, a ∈ chains i := by
  simp only [chainList, List.mem_flatten, List.mem_map, List.mem_range]
  constructor
  · intro member
    obtain ⟨_, ⟨i, _, rfl⟩, here⟩ := member
    exact ⟨i, here⟩
  · intro member
    obtain ⟨i, here⟩ := member
    have inside : i < buckets.length := by
      rw [spread.length, ← spread.home i a here]
      exact hashToBkt_lt _ positive
    exact ⟨chains i, ⟨i, inside, rfl⟩, here⟩

end Old

/-- The elements are in their buckets, and only bucket pointers were written. -/
structure Settled (memory after : Memory ε) (tbl tbl' : Table) (content : Nat → Item ε)
    (members : Nat → Prop) (chains : Nat → List Nat) : Prop where
  item : after.item = memory.item
  next : after.next = memory.next
  prev : after.prev = memory.prev
  fresh : after.fresh = memory.fresh
  tail : tbl'.tail = tbl.tail
  numItems : tbl'.numItems = tbl.numItems
  positive : 0 < tbl'.numBuckets.toNat
  grown : tbl'.numBuckets.toNat ≤ 2 * tbl.numBuckets.toNat
  spread : Spread after content tbl'.numBuckets tbl'.buckets chains
  members : ∀ i a, a ∈ chains i ↔ members a ∧ bucketOf content tbl'.numBuckets a = i

/-- Some allocation of at most `bound` bytes fails. -/
def Refused (granted : Nat → Bool) (bound : Nat) : Prop := ∃ size ≤ bound, granted size = false

/-- The largest array of buckets an `unsigned` can count takes 2³⁵ bytes; the next
one does not fit into the limit. -/
theorem expandBuckets_spec {granted : Nat → Bool}
    (limit : ∀ size, 2 ^ 36 ≤ size → granted size = false) {memory : Memory ε} (tbl : Table)
    {chains : Nat → List Nat} (positive : 0 < tbl.numBuckets.toNat)
    (spread : Spread memory content tbl.numBuckets tbl.buckets chains)
    (bounded : ∀ i, ∀ a ∈ chains i, a < memory.fresh) :
    expandBuckets granted memory tbl = .error (.exit (-1)) ∧
        Refused granted (32 * tbl.numBuckets.toNat) ∨
      ∃ after tbl' chains', expandBuckets granted memory tbl = .ok (after, tbl') ∧
        Settled memory after tbl tbl' content (fun a => ∃ i, a ∈ chains i) chains' := by
  cases given : granted (sizeofBucket * tbl.numBuckets.toNat * 2) with
  | false =>
      refine .inl ⟨?_, _, ?_, given⟩
      · simp only [expandBuckets, given, Bool.not_false, ↓reduceIte]
      · simp only [sizeofBucket]
        omega
  | true =>
      have below : sizeofBucket * tbl.numBuckets.toNat * 2 < 2 ^ 36 := by
        by_contra large
        rw [limit _ (Nat.le_of_not_lt large)] at given
        cases given
      have doubled : (tbl.numBuckets * 2).toNat = tbl.numBuckets.toNat * 2 := by
        rw [UInt32.toNat_mul]
        exact Nat.mod_eq_of_lt (by simp only [sizeofBucket] at below; simp; omega)
      have positive' : 0 < (tbl.numBuckets * 2).toNat := by omega
      have start := Spread.empty memory content (tbl.numBuckets * 2)
      have member := spread.mem_flatten positive
      rw [doubled] at start
      obtain ⟨after, buckets', nonideal', chains', done, spread', moved⟩ :=
        expandAll_spec positive' tbl.idealChain memory.fresh spread.heads 0
          (fun chain listed => by
            obtain ⟨i, _, rfl⟩ := List.mem_map.mp listed
            exact length_le_fresh (spread.distinct i) (bounded i))
          start
          (fun chain listed => by
            obtain ⟨i, _, rfl⟩ := List.mem_map.mp listed
            exact spread.linked i)
          spread.flatten_nodup
          (fun a inside => by
            obtain ⟨i, here⟩ := (member a).mp inside
            exact spread.live i a here)
          (fun a _ j => by simp)
      refine .inr ⟨after, tbl.expanded buckets' nonideal', chains', ?_, ?_⟩
      · simp only [expandBuckets, given, Bool.not_true, Bool.false_eq_true, ↓reduceIte, done,
          Proc.ok_bind, Proc.pure_eq_ok]
      · refine ⟨moved.item, moved.next, moved.prev, moved.fresh, rfl, rfl, positive', ?_, spread', ?_⟩
        · change (tbl.numBuckets * 2).toNat ≤ _
          omega
        intro i a
        have numBuckets : (tbl.expanded buckets' nonideal').numBuckets = tbl.numBuckets * 2 := rfl
        rw [moved.members i a, member a, numBuckets]
        simp

theorem addToBkt_spec {granted : Nat → Bool}
    (limit : ∀ size, 2 ^ 36 ≤ size → granted size = false) {memory : Memory ε} (tbl : Table)
    {chains : Nat → List Nat} (positive : 0 < tbl.numBuckets.toNat)
    (spread : Spread memory content tbl.numBuckets tbl.buckets chains)
    (bounded : ∀ i, ∀ b ∈ chains i, b < memory.fresh) {a : Nat}
    (live : memory.item a = some (content a)) (below : a < memory.fresh)
    (fresh : ∀ i, a ∉ chains i) :
    addToBkt granted memory tbl (hashToBkt (content a).hashv tbl.numBuckets) a =
          .error (.exit (-1)) ∧ Refused granted (32 * tbl.numBuckets.toNat) ∨
      ∃ after tbl' chains',
        addToBkt granted memory tbl (hashToBkt (content a).hashv tbl.numBuckets) a =
          .ok (after, tbl') ∧
        Settled memory after tbl tbl' content (fun b => b = a ∨ ∃ i, b ∈ chains i) chains' := by
  have inside : bucketOf content tbl.numBuckets a < tbl.buckets.length := by
    rw [spread.length]
    exact hashToBkt_lt _ positive
  have read := List.getElem?_eq_getElem inside
  have bucket : bucketAt tbl.buckets (hashToBkt (content a).hashv tbl.numBuckets) =
      .ok (tbl.buckets[bucketOf content tbl.numBuckets a]) := bucketAt_of_lt inside
  have link := linkFront_of_live live (spread.head_live read)
  have pushed := spread.push live fresh rfl read
    (tbl.buckets[bucketOf content tbl.numBuckets a]).expandMult
  have moved := spread.moved read
  have member : ∀ b, (∃ i, b ∈ Function.update chains (bucketOf content tbl.numBuckets a)
      (a :: chains (bucketOf content tbl.numBuckets a)) i) ↔ b = a ∨ ∃ i, b ∈ chains i := by
    intro b
    simp only [moved.members, List.mem_singleton, exists_or, exists_eq_right']
    exact or_comm
  unfold addToBkt
  rw [bucket, Proc.ok_bind, link, Proc.ok_bind]
  dsimp only
  split
  · have bounded' : ∀ i, ∀ b ∈ Function.update chains (bucketOf content tbl.numBuckets a)
        (a :: chains (bucketOf content tbl.numBuckets a)) i, b < memory.fresh := by
      intro i b there
      rcases (member b).mp ⟨i, there⟩ with rfl | ⟨j, old⟩
      · exact below
      · exact bounded j b old
    rcases expandBuckets_spec limit (tbl.setBucket _ _) positive pushed bounded' with
      exited | ⟨after, tbl', chains', done, settled⟩
    · exact .inl exited
    · refine .inr ⟨after, tbl', chains', done, settled.item, settled.next, settled.prev,
        settled.fresh, settled.tail, settled.numItems, settled.positive, settled.grown, settled.spread, ?_⟩
      intro i b
      exact (settled.members i b).trans (and_congr_left' (member b))
  · refine .inr ⟨_, _, _, rfl, rfl, rfl, rfl, rfl, rfl, rfl, positive, ?_, pushed, ?_⟩
    · exact Nat.le_mul_of_pos_left _ Nat.zero_lt_two
    intro i b
    rw [← member b]
    constructor
    · exact fun there => ⟨⟨i, there⟩, pushed.home i b there⟩
    · intro there
      obtain ⟨⟨j, there⟩, home⟩ := there
      have same : j = i := (pushed.home j b there).symm.trans home
      exact same ▸ there

end LibNrm.Uthash
