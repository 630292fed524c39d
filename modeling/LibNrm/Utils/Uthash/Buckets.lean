import LibNrm.Utils.Uthash
import Mathlib.Data.Finset.Card
import Mathlib.Data.Finset.Range

namespace LibNrm.Uthash

open Data

variable {ε : Type} {memory : Memory ε} {content : Nat → Item ε} {numBkts : UInt32}
  {buckets : List Bucket} {chains : Nat → List Nat}

theorem hashToBkt_lt (hashv : UInt32) (positive : 0 < numBkts.toNat) :
    (hashToBkt hashv numBkts).toNat < numBkts.toNat := by
  have one : (1 : UInt32) ≤ numBkts := UInt32.le_iff_toNat_le.mpr positive
  have mask : (numBkts - 1).toNat = numBkts.toNat - 1 := UInt32.toNat_sub_of_le _ _ one
  have below : (hashToBkt hashv numBkts).toNat ≤ (numBkts - 1).toNat := by
    rw [hashToBkt, UInt32.toNat_and]
    exact Nat.and_le_right
  omega

theorem bucketAt_of_lt {bkt : UInt32} (inside : bkt.toNat < buckets.length) :
    bucketAt buckets bkt = .ok buckets[bkt.toNat] := by
  simp only [bucketAt, List.getElem?_eq_getElem inside]

theorem Memory.load_of_live {address : Nat} {item : Item ε}
    (live : memory.item address = some item) : memory.load address = .ok item := by
  simp only [load, live]

def linkedFront (memory : Memory ε) (hhHead : Option Nat) (addhh : Nat) : Memory ε :=
  { memory with
    hhNext := Function.update memory.hhNext addhh hhHead
    hhPrev := relink (Function.update memory.hhPrev addhh none) hhHead (some addhh) }

theorem linkFront_of_live {hhHead : Option Nat} {addhh : Nat}
    (live : memory.item addhh = some (content addhh))
    (liveHead : ∀ first ∈ hhHead, memory.item first = some (content first)) :
    linkFront memory hhHead addhh = .ok (linkedFront memory hhHead addhh) := by
  simp only [linkFront, Memory.setHhNext, Memory.setHhPrev, Memory.load, live, Proc.ok_bind,
    Proc.pure_eq_ok]
  cases hhHead with
  | none => rfl
  | some first =>
      simp only [Memory.unlessNull, liveHead first rfl, Proc.ok_bind]
      rfl

structure Spread (memory : Memory ε) (content : Nat → Item ε) (numBkts : UInt32)
    (buckets : List Bucket) (chains : Nat → List Nat) : Prop where
  length : buckets.length = numBkts.toNat
  live : ∀ i, ∀ a ∈ chains i, memory.item a = some (content a)
  home : ∀ i, ∀ a ∈ chains i, (hashToBkt (content a).hashv numBkts).toNat = i
  distinct : ∀ i, (chains i).Nodup
  linked : ∀ i, Linked memory.hhNext memory.hhPrev none (chains i) none
  head : ∀ i bucket, buckets[i]? = some bucket → bucket.hhHead = (chains i).head?
  count : ∀ i bucket, buckets[i]? = some bucket → bucket.count = UInt32.ofNat (chains i).length

/-- The same chains seen from another memory with the same bucket pointers. -/
theorem Spread.transfer (spread : Spread memory content numBkts buckets chains)
    (other : Memory ε) {content' : Nat → Item ε}
    (live : ∀ i, ∀ a ∈ chains i, other.item a = some (content a))
    (same : ∀ i, ∀ a ∈ chains i, content' a = content a)
    (hhNext : other.hhNext = memory.hhNext) (hhPrev : other.hhPrev = memory.hhPrev) :
    Spread other content' numBkts buckets chains where
  length := spread.length
  live i a member := by rw [live i a member, same i a member]
  home i a member := by rw [same i a member, spread.home i a member]
  distinct := spread.distinct
  linked i := by rw [hhNext, hhPrev]; exact spread.linked i
  head := spread.head
  count := spread.count

theorem Spread.head_live (spread : Spread memory content numBkts buckets chains) {i : Nat}
    {bucket : Bucket} (read : buckets[i]? = some bucket) :
    ∀ first ∈ bucket.hhHead, memory.item first = some (content first) := by
  intro first member
  rw [spread.head i bucket read] at member
  exact spread.live i first (List.mem_of_mem_head? member)

theorem length_le_fresh {chain : List Nat} {fresh : Nat} (distinct : chain.Nodup)
    (bounded : ∀ a ∈ chain, a < fresh) : chain.length ≤ fresh := by
  have inside : chain.toFinset ⊆ Finset.range fresh := by
    intro a member
    exact Finset.mem_range.mpr (bounded a (List.mem_toFinset.mp member))
  have card := Finset.card_le_card inside
  rwa [List.toFinset_card_of_nodup distinct, Finset.card_range] at card

theorem Spread.apart (spread : Spread memory content numBkts buckets chains) {a i j : Nat}
    (here : a ∈ chains i) (there : a ∈ chains j) : i = j :=
  (spread.home i a here).symm.trans (spread.home j a there)

/-- A change to one bucket and its chain.  What is asked of the memory is that the
chain is linked and that the others do not notice. -/
theorem Spread.update {other : Memory ε} (spread : Spread memory content numBkts buckets chains)
    {i : Nat} {bucket : Bucket} {chain : List Nat} (inside : i < buckets.length)
    (live : ∀ a ∈ chain, other.item a = some (content a))
    (home : ∀ a ∈ chain, (hashToBkt (content a).hashv numBkts).toNat = i)
    (distinct : chain.Nodup) (linked : Linked other.hhNext other.hhPrev none chain none)
    (head : bucket.hhHead = chain.head?) (count : bucket.count = UInt32.ofNat chain.length)
    (items : other.item = memory.item)
    (untouched : ∀ j, j ≠ i → ∀ a ∈ chains j,
      other.hhNext a = memory.hhNext a ∧ other.hhPrev a = memory.hhPrev a) :
    Spread other content numBkts (buckets.set i bucket) (Function.update chains i chain) where
  length := by rw [List.length_set, spread.length]
  live := (Function.forall_update_iff chains fun _ chain =>
      ∀ a ∈ chain, other.item a = some (content a)).mpr
    ⟨live, fun j _ a member => items ▸ spread.live j a member⟩
  home := (Function.forall_update_iff chains fun j chain =>
      ∀ a ∈ chain, (hashToBkt (content a).hashv numBkts).toNat = j).mpr
    ⟨home, fun j _ => spread.home j⟩
  distinct := (Function.forall_update_iff chains fun _ chain => chain.Nodup).mpr
    ⟨distinct, fun j _ => spread.distinct j⟩
  linked := (Function.forall_update_iff chains fun _ chain =>
      Linked other.hhNext other.hhPrev none chain none).mpr
    ⟨linked, fun j elsewhere => (spread.linked j).congr
      (fun a member => (untouched j elsewhere a member).1)
      (fun a member => (untouched j elsewhere a member).2)⟩
  head := (Function.forall_update_iff chains fun j chain =>
      ∀ bucket', (buckets.set i bucket)[j]? = some bucket' → bucket'.hhHead = chain.head?).mpr
    ⟨fun bucket' read => by
        rw [List.getElem?_set_self inside] at read
        cases read
        exact head,
      fun j elsewhere bucket' read => spread.head j bucket' <| by
        rwa [List.getElem?_set_ne (Ne.symm elsewhere)] at read⟩
  count := (Function.forall_update_iff chains fun j chain =>
      ∀ bucket', (buckets.set i bucket)[j]? = some bucket' →
        bucket'.count = UInt32.ofNat chain.length).mpr
    ⟨fun bucket' read => by
        rw [List.getElem?_set_self inside] at read
        cases read
        exact count,
      fun j elsewhere bucket' read => spread.count j bucket' <| by
        rwa [List.getElem?_set_ne (Ne.symm elsewhere)] at read⟩

theorem Spread.linkedFront_frame (spread : Spread memory content numBkts buckets chains)
    {a b i : Nat} {bucket : Bucket} (read : buckets[i]? = some bucket) (other : b ≠ a)
    (outside : b ∉ chains i) :
    (linkedFront memory bucket.hhHead a).hhNext b = memory.hhNext b ∧
      (linkedFront memory bucket.hhHead a).hhPrev b = memory.hhPrev b := by
  have elsewhere : bucket.hhHead ≠ some b := by
    intro same
    exact outside (List.mem_of_mem_head? ((spread.head i bucket read) ▸ same))
  constructor
  · exact Function.update_of_ne other ..
  · change relink _ _ _ b = _
    rw [relink_of_ne elsewhere, Function.update_of_ne other]

theorem Spread.push (spread : Spread memory content numBkts buckets chains) {a i : Nat}
    {bucket : Bucket} (live : memory.item a = some (content a)) (fresh : ∀ j, a ∉ chains j)
    (home : (hashToBkt (content a).hashv numBkts).toNat = i)
    (read : buckets[i]? = some bucket) (expandMult : UInt32) :
    Spread (linkedFront memory bucket.hhHead a) content numBkts
      (buckets.set i ⟨some a, bucket.count + 1, expandMult⟩)
      (Function.update chains i (a :: chains i)) := by
  obtain ⟨inside, _⟩ := List.getElem?_eq_some_iff.mp read
  refine spread.update inside ?_ ?_ (List.nodup_cons.mpr ⟨fresh i, spread.distinct i⟩) ?_ rfl ?_ rfl ?_
  · exact List.forall_mem_cons.mpr ⟨live, spread.live i⟩
  · exact List.forall_mem_cons.mpr ⟨home, spread.home i⟩
  · rw [spread.head i bucket read]
    exact (spread.linked i).pushFront (spread.distinct i) (fresh i)
  · rw [List.length_cons, UInt32.ofNat_add]
    exact congrArg (· + 1) (spread.count i bucket read)
  · intro j elsewhere b member
    have other : b ≠ a := fun same => fresh j (same ▸ member)
    exact spread.linkedFront_frame read other fun there => elsewhere (spread.apart member there)

theorem ofNat_length_middle (front back : List Nat) (a : Nat) :
    UInt32.ofNat (front ++ a :: back).length - 1 = UInt32.ofNat (front ++ back).length := by
  have longer : (front ++ a :: back).length = (front ++ back).length + 1 := by
    simp only [List.length_append, List.length_cons]
    omega
  rw [longer, UInt32.ofNat_add]
  exact UInt32.add_sub_cancel _ 1

def unlinked (memory : Memory ε) (delhh : Nat) : Memory ε :=
  { memory with
    hhNext := relink memory.hhNext (memory.hhPrev delhh) (memory.hhNext delhh)
    hhPrev := relink memory.hhPrev (memory.hhNext delhh) (memory.hhPrev delhh) }

theorem Spread.remove (spread : Spread memory content numBkts buckets chains) {a i : Nat}
    {front back : List Nat} {bucket : Bucket} (chain : chains i = front ++ a :: back)
    (read : buckets[i]? = some bucket) :
    Spread (unlinked memory a) content numBkts
      (buckets.set i
        { bucket with
          hhHead := if bucket.hhHead = some a then memory.hhNext a else bucket.hhHead
          count := bucket.count - 1 })
      (Function.update chains i (front ++ back)) := by
  obtain ⟨inside, _⟩ := List.getElem?_eq_some_iff.mp read
  have first := spread.head i bucket read
  have linked := spread.linked i
  have distinct := spread.distinct i
  have live := spread.live i
  have home := spread.home i
  have count := spread.count i bucket read
  rw [chain] at first linked distinct live home count
  have kept : ∀ b ∈ front ++ back, b ∈ front ++ a :: back := fun b member => by
    rcases List.mem_append.mp member with early | late
    · exact List.mem_append_left _ early
    · exact List.mem_append_right _ (List.mem_cons_of_mem a late)
  obtain ⟨toPrev, toNext⟩ := linked.at
  rw [Option.or_none] at toPrev toNext
  obtain ⟨_, _, separate⟩ := List.nodup_append.mp distinct
  refine spread.update inside (fun b member => live b (kept b member))
    (fun b member => home b (kept b member)) ?_ (linked.unlink distinct) ?_ ?_ rfl ?_
  · exact distinct.sublist ((List.sublist_cons_self a back).append_left front)
  · cases front with
    | nil =>
        have isHead : bucket.hhHead = some a := first
        simp only [isHead, ↓reduceIte, toNext, List.nil_append]
    | cons earliest front =>
        have isHead : bucket.hhHead = some earliest := first
        have other : earliest ≠ a := separate earliest List.mem_cons_self a List.mem_cons_self
        simp only [isHead, Option.some.injEq, other, ↓reduceIte, List.cons_append, List.head?_cons]
  · change bucket.count - 1 = _
    rw [count, ofNat_length_middle]
  · intro j elsewhere b member
    have outside : b ∉ front ++ a :: back := fun there =>
      elsewhere (spread.apart member (chain ▸ there))
    constructor
    · refine relink_of_ne fun same => outside (List.mem_append_left _ ?_)
      exact List.mem_of_getLast? (toPrev ▸ same)
    · refine relink_of_ne fun same => outside (List.mem_append_right _ (List.mem_cons_of_mem a ?_))
      exact List.mem_of_mem_head? (toNext ▸ same)

end LibNrm.Uthash
