import LibNrm.Data.Run
import LibNrm.Utils.Utarray.Blocks

namespace LibNrm

open UtArray

variable {sz : Nat}

inductive VectorOp (sz : Nat) where
  | pushBack (element : Element sz) (alloc : Allocator)
  | popBack
  | take (position : Nat)
  | resize (newlen : Nat) (alloc : Allocator)
  | clear
  | length
  | get (index : Nat)
  | foreach
  | copy (alloc : Allocator)

inductive VectorReply where
  | code (code : Int)
  | out (code : Int) (element : Option (List UInt8))
  | length (length : Nat)
  | elements (elements : List (List UInt8))
deriving DecidableEq, Repr

/-- A call, and what its caller sees.  The element `nrm_vector_get` points to is read
right away, and the copy is looked through. -/
def vectorStep (vector : UtArray sz) : VectorOp sz → Proc (UtArray sz × VectorReply)
  | .pushBack element alloc => do
      let (code, vector) ← vectorPushBack alloc vector element
      pure (vector, .code code)
  | .popBack => do
      let (code, element, vector) ← vectorPopBack vector
      pure (vector, .out code element)
  | .take position => do
      let (code, element, vector) ← vectorTake vector position
      pure (vector, .out code element)
  | .resize newlen alloc => do
      let (code, vector) ← vectorResize alloc vector newlen
      pure (vector, .code code)
  | .clear => pure (vectorClear vector, .code nrmSuccess)
  | .length => pure (vector, .length (vectorLength vector))
  | .get index =>
      match vectorGet vector index with
      | (code, none) => pure (vector, .out code none)
      | (code, some pointer) => do
          let element ← vector.load pointer sz
          pure (vector, .out code (some element))
  | .foreach => do
      let elements ← vectorForeach vector vector.i (vectorIteratorBegin vector)
      pure (vector, .elements elements)
  | .copy alloc => do
      match ← vectorCopy alloc vector with
      | (code, none) => pure (vector, .code code)
      | (_, some copy) =>
          let elements ← vectorForeach copy copy.i (vectorIteratorBegin copy)
          pure (vector, .elements elements)

def zeroElement (sz : Nat) : Element sz := ⟨List.replicate sz 0, List.length_replicate⟩

/-- The same call on a list. -/
def listStep (items : List (Element sz)) : VectorOp sz → Proc (List (Element sz) × VectorReply)
  | .pushBack element _ =>
      if items.length < 2 ^ 31 then .ok (items ++ [element], .code nrmSuccess) else .error .diverges
  | .popBack =>
      match items.getLast? with
      | none => .ok (items, .out (-nrmEdom) none)
      | some last => .ok (items.dropLast, .out nrmSuccess (some last.bytes))
  | .take position =>
      match items[position]? with
      | none => .ok (items, .out (-nrmEdom) none)
      | some element => .ok (items.eraseIdx position, .out nrmSuccess (some element.bytes))
  | .resize newlen _ =>
      if newlen % 2 ^ 32 ≤ items.length then .ok (items.take (newlen % 2 ^ 32), .code nrmSuccess)
      else if newlen ≤ 2 ^ 31 then
        .ok (items ++ List.replicate (newlen - items.length) (zeroElement sz), .code nrmSuccess)
      else .error .diverges
  | .clear => .ok ([], .code nrmSuccess)
  | .length => .ok (items, .length items.length)
  | .get index =>
      match items[index]? with
      | none => .ok (items, .out (-nrmEdom) none)
      | some element => .ok (items, .out nrmSuccess (some element.bytes))
  | .foreach => .ok (items, .elements (items.map Element.bytes))
  | .copy _ => .ok (items, .elements (items.map Element.bytes))

theorem vectorHolds_empty : VectorHolds (⟨0, 0, []⟩ : UtArray sz) [] := ⟨rfl, rfl, .inl rfl, [], rfl⟩

section Steps

variable {vector : UtArray sz} {items : List (Element sz)} (positive : 0 < sz)
include positive

theorem VectorHolds.slots (holds : VectorHolds vector items) : items.length ≤ 2 ^ 31 :=
  Nat.le_trans (holds.length_le positive) holds.capacity.le

theorem VectorHolds.pushBack_diverges (holds : VectorHolds vector items) (alloc : Allocator)
    (element : Element sz) (full : ¬ items.length < 2 ^ 31) :
    vectorPushBack alloc vector element = .error .diverges := by
  have bound := holds.slots positive
  have counted : (vector.i + 1) % 2 ^ 32 = items.length + 1 := by
    rw [holds.length]
    exact Nat.mod_eq_of_lt (by omega)
  simp only [vectorPushBack, counted, holds.reserve_diverges alloc (by omega : 2 ^ 31 < items.length + 1),
    Proc.error_bind]

variable (fits : sz ≤ 2 ^ 32)
include fits

omit positive fits in
theorem split_of_getElem? {j : Nat} {element : Element sz} (found : items[j]? = some element) :
    items = items.take j ++ [element] ++ items.drop (j + 1) := by
  obtain ⟨inside, rfl⟩ := List.getElem?_eq_some_iff.mp found
  rw [List.append_assoc, List.singleton_append, ← List.drop_eq_getElem_cons, List.take_append_drop]

theorem VectorHolds.load_one (holds : VectorHolds vector items) {j : Nat} {element : Element sz}
    (found : items[j]? = some element) : vector.load (eltptr sz j) sz = .ok element.bytes := by
  have bound := holds.slots positive
  have inside := (List.getElem?_eq_some_iff.mp found).1
  have loaded := holds.load _ _ _ (split_of_getElem? found)
  rw [List.length_take_of_le (Nat.le_of_lt inside), List.length_singleton, Nat.mul_one,
    flat_singleton] at loaded
  rw [eltptr_eq fits (by omega), loaded]

theorem VectorHolds.foreach_from (holds : VectorHolds vector items) (left : Nat) {j turns : Nat}
    (rest : j + left = items.length) (enough : left ≤ turns) :
    vectorForeach vector turns (if j < items.length then some (eltptr sz j) else none) =
      .ok ((items.drop j).map Element.bytes) := by
  have bound := holds.slots positive
  induction left generalizing j turns with
  | zero =>
      rw [if_neg (by omega), List.drop_of_length_le (by omega), vectorForeach]
      rfl
  | succ left ih =>
      obtain ⟨turns, rfl⟩ : ∃ less, turns = less + 1 := ⟨turns - 1, by omega⟩
      have inside : j < items.length := by omega
      have pointer := eltptr_eq fits (by omega : j ≤ 2 ^ 31)
      have index : eltidx sz (eltptr sz j) = j := by
        rw [pointer, eltidx, Nat.mul_div_cancel_left _ positive]
      have next : vectorIteratorNext vector (eltptr sz j) =
          if j + 1 < items.length then some (eltptr sz (j + 1)) else none := by
        rw [vectorIteratorNext, index, holds.length]
        by_cases last : items.length = j + 1
        · rw [if_neg (by omega), if_neg (by omega)]
        · rw [if_pos last, if_pos (by omega)]
      rw [if_pos inside, vectorForeach, holds.load_one positive fits (List.getElem?_eq_getElem inside), next,
        Proc.ok_bind, ih (by omega) (by omega), List.drop_eq_getElem_cons inside]
      rfl

theorem VectorHolds.foreach (holds : VectorHolds vector items) :
    vectorForeach vector vector.i (vectorIteratorBegin vector) = .ok (items.map Element.bytes) := by
  have all := holds.foreach_from positive fits items.length (Nat.zero_add _) (Nat.le_refl _)
  have begin : vectorIteratorBegin vector = if 0 < items.length then some (eltptr sz 0) else none := by
    rw [vectorIteratorBegin, holds.length]
    simp only [Nat.pos_iff_ne_zero]
  rw [begin, holds.length]
  simpa using all

omit positive in
theorem VectorHolds.pushBack (holds : VectorHolds vector items) {alloc : Allocator}
    (granted : ∀ size, alloc.granted size = true) (element : Element sz) (room : items.length < 2 ^ 31) :
    ∃ after, vectorPushBack alloc vector element = .ok (nrmSuccess, after) ∧
      VectorHolds after (items ++ [element]) := by
  have counted : (vector.i + 1) % 2 ^ 32 = items.length + 1 := by
    rw [holds.length]
    exact Nat.mod_eq_of_lt (by omega)
  obtain ⟨larger, reserved, enough, kept⟩ := holds.reserve fits granted (by omega : items.length + 1 ≤ 2 ^ 31)
  have same : larger.i = vector.i := by
    rw [kept.length, holds.length]
  obtain ⟨d, stored, added⟩ := kept.store [element] enough
  refine ⟨_, ?_, added⟩
  have slot : eltptr sz vector.i = sz * items.length := by
    rw [holds.length, eltptr_eq fits (by omega)]
  have written : larger.store (sz * items.length) element.bytes = .ok { larger with d := d } := by
    rw [← flat_singleton]
    exact stored larger.i
  simp only [vectorPushBack, counted, reserved, Proc.ok_bind, Bool.not_true, Bool.false_eq_true, ↓reduceIte,
    slot, written, Proc.pure_eq_ok, same, List.length_singleton]

omit positive fits in
theorem VectorHolds.shorten {front back : List (Element sz)} (holds : VectorHolds vector (front ++ back)) :
    VectorHolds { vector with i := front.length } front := by
  obtain ⟨rest, content⟩ := holds.content
  refine ⟨rfl, holds.block, holds.capacity, flat back ++ rest, ?_⟩
  rw [content, flat_append, List.append_assoc]

theorem VectorHolds.popBack {front : List (Element sz)} {last : Element sz}
    (holds : VectorHolds vector (front ++ [last])) :
    ∃ after, vectorPopBack vector = .ok (nrmSuccess, some last.bytes, after) ∧ VectorHolds after front := by
  have length : vector.i = front.length + 1 := by
    rw [holds.length, List.length_append, List.length_singleton]
  have found : (front ++ [last])[front.length]? = some last := by simp
  have loaded := holds.load_one positive fits found
  refine ⟨{ vector with i := front.length }, ?_, holds.shorten⟩
  simp only [vectorPopBack, length, Nat.add_one_ne_zero, ↓reduceIte, Nat.add_sub_cancel, loaded, Proc.ok_bind,
    Proc.pure_eq_ok]

theorem VectorHolds.erase {front back : List (Element sz)} {element : Element sz}
    (holds : VectorHolds vector (front ++ [element] ++ back)) :
    ∃ after, vector.erase front.length = .ok after ∧ VectorHolds after (front ++ back) := by
  have bound := holds.slots positive
  have length : vector.i = front.length + 1 + back.length := by
    rw [holds.length, List.length_append, List.length_append, List.length_singleton]
  rw [List.length_append, List.length_append, List.length_singleton] at bound
  by_cases last : back = []
  · subst last
    refine ⟨{ vector with i := front.length }, ?_, ?_⟩
    · rw [List.length_nil, Nat.add_zero] at length
      simp only [UtArray.erase, length, Nat.lt_irrefl, ↓reduceIte, Proc.pure_eq_ok, Proc.ok_bind,
        Nat.add_sub_cancel]
    · rw [List.append_nil] at holds ⊢
      exact holds.shorten
  · have more : front.length + 1 < front.length + 1 + back.length := by
      have := List.length_pos_of_ne_nil last
      omega
    have bytes : (front.length + 1 + back.length - (front.length + 1)) * sz % 2 ^ 64 = sz * back.length := by
      rw [Nat.add_sub_cancel_left, Nat.mul_comm]
      exact Nat.mod_eq_of_lt (mul_lt_of_slot fits (by omega))
    have loaded := holds.load (front ++ [element]) back []
      (by rw [List.append_nil])
    rw [List.length_append, List.length_singleton] at loaded
    have shortened : VectorHolds { vector with i := front.length } front := by
      rw [List.append_assoc] at holds
      exact holds.shorten
    have room := holds.length_le positive
    rw [List.length_append, List.length_append, List.length_singleton] at room
    obtain ⟨d, stored, joined⟩ := shortened.store back (by dsimp only; omega)
    refine ⟨_, ?_, joined⟩
    have written : vector.store (sz * front.length) (flat back) = .ok { vector with d := d } := stored vector.i
    have behind : eltptr sz (front.length + 1) = sz * (front.length + 1) := eltptr_eq fits (by omega)
    have place : eltptr sz front.length = sz * front.length := eltptr_eq fits (by omega)
    have fewer : front.length + 1 + back.length - 1 = front.length + back.length := by omega
    simp only [UtArray.erase, length, if_pos more, bytes, behind, place, loaded, Proc.ok_bind, written,
      Proc.pure_eq_ok, fewer]

theorem VectorHolds.take (holds : VectorHolds vector items) {position : Nat} {element : Element sz}
    (found : items[position]? = some element) :
    ∃ after, vectorTake vector position = .ok (nrmSuccess, some element.bytes, after) ∧
      VectorHolds after (items.eraseIdx position) := by
  have inside := (List.getElem?_eq_some_iff.mp found).1
  have loaded := holds.load_one positive fits found
  have length := holds.length
  rw [split_of_getElem? found] at holds
  obtain ⟨after, erased, kept⟩ := holds.erase positive fits
  rw [List.length_take_of_le (Nat.le_of_lt inside)] at erased
  rw [← List.eraseIdx_eq_take_drop_succ] at kept
  refine ⟨after, ?_, kept⟩
  simp only [vectorTake, if_neg (by omega : ¬ vector.i ≤ position), loaded, Proc.ok_bind, erased,
    Proc.pure_eq_ok]

omit positive in
theorem VectorHolds.resize (holds : VectorHolds vector items) {alloc : Allocator}
    (granted : ∀ size, alloc.granted size = true) {newlen : Nat} (more : items.length < newlen)
    (small : newlen ≤ 2 ^ 31) :
    ∃ after, vectorResize alloc vector newlen = .ok (nrmSuccess, after) ∧
      VectorHolds after (items ++ List.replicate (newlen - items.length) (zeroElement sz)) := by
  have whole : newlen % 2 ^ 32 = newlen := Nat.mod_eq_of_lt (by omega)
  have need : vector.i + (newlen - vector.i) = newlen := by
    rw [holds.length]
    omega
  obtain ⟨larger, reserved, enough, kept⟩ := holds.reserve fits granted small
  have same : larger.i = items.length := kept.length
  obtain ⟨d, stored, added⟩ := kept.store (List.replicate (newlen - items.length) (zeroElement sz))
    (by rw [List.length_replicate]; omega)
  have zeros : List.replicate (sz * (newlen - items.length) % 2 ^ 64) 0 =
      flat (List.replicate (newlen - items.length) (zeroElement sz)) := by
    rw [Nat.mod_eq_of_lt (mul_lt_of_slot fits (by omega)), flat, List.map_replicate, zeroElement,
      List.flatten_replicate_replicate, Nat.mul_comm]
  have written : larger.store (sz * items.length)
      (flat (List.replicate (newlen - items.length) (zeroElement sz))) = .ok { larger with d := d } :=
    stored larger.i
  rw [List.length_replicate, Nat.add_sub_cancel' (Nat.le_of_lt more)] at added
  refine ⟨_, ?_, added⟩
  have slot : eltptr sz items.length = sz * items.length := eltptr_eq fits (by omega)
  rw [holds.length] at need
  simp only [vectorResize, whole, holds.length, if_pos more, need, reserved, Proc.ok_bind, Bool.not_true,
    Bool.false_eq_true, ↓reduceIte, same, slot, zeros, written, Proc.pure_eq_ok]

omit positive fits in
theorem VectorHolds.resize_shorter (holds : VectorHolds vector items) (alloc : Allocator) {newlen : Nat}
    (fewer : newlen % 2 ^ 32 ≤ items.length) :
    ∃ after, vectorResize alloc vector newlen = .ok (nrmSuccess, after) ∧
      VectorHolds after (items.take (newlen % 2 ^ 32)) := by
  rw [← List.take_append_drop (newlen % 2 ^ 32) items] at holds
  have kept := holds.shorten
  rw [List.length_take_of_le fewer] at kept
  refine ⟨_, ?_, kept⟩
  have length := holds.length
  rw [List.take_append_drop] at length
  rw [vectorResize, if_neg (by omega)]
  rfl

omit positive fits in
theorem VectorHolds.resize_diverges (holds : VectorHolds vector items) (alloc : Allocator) {newlen : Nat}
    (more : ¬ newlen % 2 ^ 32 ≤ items.length) (large : ¬ newlen ≤ 2 ^ 31) :
    vectorResize alloc vector newlen = .error .diverges := by
  have length := holds.length
  have need : 2 ^ 31 < vector.i + (newlen - vector.i) := by omega
  rw [vectorResize, if_pos (by omega), holds.reserve_diverges alloc need]
  rfl

theorem VectorHolds.copy (holds : VectorHolds vector items) {alloc : Allocator}
    (granted : ∀ size, alloc.granted size = true) :
    ∃ copy, vectorCopy alloc vector = .ok (nrmSuccess, some copy) ∧ VectorHolds copy items := by
  have bound := holds.slots positive
  have created : vectorCreate alloc sz = (nrmSuccess, some ⟨0, 0, []⟩) := by
    simp [vectorCreate, granted, Nat.pos_iff_ne_zero.mp positive]
  have empty : VectorHolds (⟨0, 0, []⟩ : UtArray sz) [] := vectorHolds_empty
  by_cases none : vector.i = 0
  · have nothing : items = [] := List.length_eq_zero_iff.mp (by rw [← holds.length, none])
    rw [nothing]
    refine ⟨_, ?_, empty⟩
    simp only [vectorCopy, created, if_pos none, Proc.pure_eq_ok]
  · have counted : (0 + vector.i) % 2 ^ 32 = items.length := by
      rw [Nat.zero_add, holds.length]
      exact Nat.mod_eq_of_lt (by omega)
    obtain ⟨larger, reserved, enough, kept⟩ := empty.reserve fits granted bound
    obtain ⟨d, stored, added⟩ := kept.store items (by simpa using enough)
    have loaded := holds.load [] items [] (by simp)
    have bytes : vector.i * sz % 2 ^ 64 = sz * items.length := by
      rw [holds.length, Nat.mul_comm]
      exact Nat.mod_eq_of_lt (mul_lt_of_slot fits bound)
    have written : larger.store (sz * 0) (flat items) = .ok { larger with d := d } := stored larger.i
    have first : eltptr sz 0 = sz * 0 := eltptr_eq fits (Nat.zero_le _)
    have start : larger.i = 0 := kept.length
    rw [List.length_nil, Nat.zero_add, List.nil_append] at added
    refine ⟨_, ?_, added⟩
    simp only [vectorCopy, created, if_neg none, counted, reserved, Proc.ok_bind, Bool.not_true,
      Bool.false_eq_true, ↓reduceIte, first, bytes, List.length_nil] at loaded ⊢
    simp only [loaded, Proc.ok_bind, start, first, written, counted, Proc.pure_eq_ok]

/-- The allocator of a call grants what it is asked for. -/
def VectorOp.Granted : VectorOp sz → Prop
  | .pushBack _ alloc | .resize _ alloc | .copy alloc => ∀ size, alloc.granted size = true
  | _ => True

theorem VectorHolds.step (holds : VectorHolds vector items) (op : VectorOp sz) (granted : op.Granted) :
    Data.Agree VectorHolds (vectorStep vector op) (listStep items op) := by
  cases op with
  | pushBack element alloc =>
      rw [listStep]
      by_cases room : items.length < 2 ^ 31
      · obtain ⟨after, pushed, kept⟩ := holds.pushBack fits granted element room
        rw [if_pos room, vectorStep, pushed]
        exact .ok kept
      · rw [if_neg room, vectorStep, holds.pushBack_diverges positive alloc element room]
        exact .error
  | popBack =>
      rcases List.eq_nil_or_concat' items with rfl | ⟨front, last, rfl⟩
      · have none : vector.i = 0 := holds.length
        rw [vectorStep, vectorPopBack, if_pos none]
        exact .ok holds
      · obtain ⟨after, popped, kept⟩ := holds.popBack positive fits
        rw [listStep, List.getLast?_concat, List.dropLast_concat, vectorStep, popped]
        exact .ok kept
  | take position =>
      cases found : items[position]? with
      | none =>
          have outside := List.getElem?_eq_none_iff.mp found
          rw [← holds.length] at outside
          rw [listStep, found, vectorStep, vectorTake, if_pos outside]
          exact .ok holds
      | some element =>
          obtain ⟨after, taken, kept⟩ := holds.take positive fits found
          rw [listStep, found, vectorStep, taken]
          exact .ok kept
  | resize newlen alloc =>
      rw [listStep]
      by_cases fewer : newlen % 2 ^ 32 ≤ items.length
      · obtain ⟨after, resized, kept⟩ := holds.resize_shorter alloc fewer
        rw [if_pos fewer, vectorStep, resized]
        exact .ok kept
      · rw [if_neg fewer]
        by_cases small : newlen ≤ 2 ^ 31
        · obtain ⟨after, resized, kept⟩ := holds.resize fits granted (by omega : items.length < newlen) small
          rw [if_pos small, vectorStep, resized]
          exact .ok kept
        · rw [if_neg small, vectorStep, holds.resize_diverges alloc fewer small]
          exact .error
  | clear =>
      rw [← List.nil_append items] at holds
      exact .ok holds.shorten
  | length =>
      rw [listStep, ← holds.length]
      exact .ok holds
  | get index =>
      cases found : items[index]? with
      | none =>
          have outside := List.getElem?_eq_none_iff.mp found
          rw [listStep, found, vectorStep, vectorGet, if_neg (by rw [holds.length]; omega)]
          exact .ok holds
      | some element =>
          have inside := (List.getElem?_eq_some_iff.mp found).1
          rw [← holds.length] at inside
          rw [listStep, found, vectorStep, vectorGet, if_pos inside]
          simp only [holds.load_one positive fits found, Proc.ok_bind]
          exact .ok holds
  | foreach =>
      rw [listStep, vectorStep, holds.foreach positive fits]
      exact .ok holds
  | copy alloc =>
      obtain ⟨copy, copied, same⟩ := holds.copy positive fits granted
      rw [listStep, vectorStep, copied]
      simp only [Proc.ok_bind, same.foreach positive fits]
      exact .ok holds

theorem VectorHolds.run (holds : VectorHolds vector items) (ops : List (VectorOp sz))
    (granted : ∀ op ∈ ops, op.Granted) :
    Data.Agree VectorHolds (Data.transcript vectorStep vector ops) (Data.transcript listStep items ops) := by
  have simulates : ∀ vector items (op : VectorOp sz), VectorHolds vector items → op.Granted →
      Data.Agree VectorHolds (vectorStep vector op) (listStep items op) :=
    fun _ _ op holds granted => holds.step positive fits op granted
  exact Data.transcript_agree simulates holds granted

end Steps

/-- As long as memory is granted the callers of a vector see a list, through any
sequence of calls: no call reads or writes outside of the block. -/
theorem vector_run_refines (positive : 0 < sz) (fits : sz ≤ 2 ^ 32) (ops : List (VectorOp sz))
    (granted : ∀ op ∈ ops, op.Granted) :
    Data.Agree VectorHolds (Data.transcript vectorStep ⟨0, 0, []⟩ ops) (Data.transcript listStep [] ops) :=
  vectorHolds_empty.run positive fits ops granted

def byteElement (byte : UInt8) : Element 1 := ⟨[byte], rfl⟩

def plenty : Allocator := ⟨fun _ => true, fun _ => 0xaa⟩

def sampleVectorOps : List (VectorOp 1) :=
  [.pushBack (byteElement 1) plenty, .pushBack (byteElement 2) plenty, .take 0, .resize 3 plenty,
    .foreach, .popBack, .get 5, .copy plenty, .clear, .length]

theorem vector_run_refines_sample :
    ∃ vector, Data.transcript vectorStep ⟨0, 0, []⟩ sampleVectorOps = .ok (vector,
      [.code 0, .code 0, .out 0 (some [1]), .code 0, .elements [[2], [0], [0]], .out 0 (some [0]),
        .out (-nrmEdom) none, .elements [[2], [0]], .code 0, .length 0]) := by
  have granted : ∀ op ∈ sampleVectorOps, op.Granted := by
    simp [sampleVectorOps, VectorOp.Granted, plenty]
  have agree := vector_run_refines (by decide) (by decide) sampleVectorOps granted
  have replies : Data.transcript listStep ([] : List (Element 1)) sampleVectorOps = .ok ([],
      [.code 0, .code 0, .out 0 (some [1]), .code 0, .elements [[2], [0], [0]], .out 0 (some [0]),
        .out (-nrmEdom) none, .elements [[2], [0]], .code 0, .length 0]) := rfl
  rw [replies] at agree
  generalize Data.transcript vectorStep ⟨0, 0, []⟩ sampleVectorOps = done at agree ⊢
  cases agree with
  | ok => exact ⟨_, rfl⟩

/-- A vector that runs with granted memory lead to. -/
def ReachableVector (vector : UtArray sz) : Prop :=
  ∃ ops : List (VectorOp sz), (∀ op ∈ ops, op.Granted) ∧
    ∃ replies, Data.transcript vectorStep ⟨0, 0, []⟩ ops = .ok (vector, replies)

theorem ReachableVector.holds {vector : UtArray sz} (reached : ReachableVector vector) (positive : 0 < sz)
    (fits : sz ≤ 2 ^ 32) : ∃ items, VectorHolds vector items := by
  obtain ⟨ops, granted, replies, ran⟩ := reached
  have agree := vectorHolds_empty.run positive fits ops granted
  rw [ran] at agree
  generalize Data.transcript listStep [] ops = specified at agree
  cases agree with
  | ok holds => exact ⟨_, holds⟩

theorem vectorPushBack_reserved {vector larger after : UtArray sz} {alloc : Allocator} {element : Element sz}
    {code : Int} (reserved : vector.reserve alloc ((vector.i + 1) % 2 ^ 32) = .ok (true, larger))
    (pushed : vectorPushBack alloc vector element = .ok (code, after)) : code = nrmSuccess := by
  simp only [vectorPushBack, reserved, Proc.ok_bind, Bool.not_true, Bool.false_eq_true, ↓reduceIte,
    Proc.pure_eq_ok] at pushed
  cases stored : larger.store (eltptr sz larger.i) element.bytes with
  | error halt =>
      rw [stored] at pushed
      cases pushed
  | ok written =>
      rw [stored] at pushed
      cases pushed
      rfl

theorem VectorHolds.pushBack_refused {vector after : UtArray sz} {items : List (Element sz)}
    (holds : VectorHolds vector items) (positive : 0 < sz) {alloc : Allocator}
    {element : Element sz} {code : Int} (pushed : vectorPushBack alloc vector element = .ok (code, after))
    (failed : code ≠ nrmSuccess) :
    code = -nrmEnomem ∧ vector.d.length = sz * items.length ∧ items.length < 2 ^ 31 ∧
      ∃ n, items.length < n ∧ after = { vector with n := n } := by
  have bound := holds.length_le positive
  by_cases room : items.length < 2 ^ 31
  · have counted : (vector.i + 1) % 2 ^ 32 = items.length + 1 := by
      rw [holds.length]
      exact Nat.mod_eq_of_lt (by omega)
    by_cases full : vector.n < items.length + 1
    · obtain ⟨n, grown, enough, _⟩ := grow_spec (by omega : items.length + 1 ≤ 2 ^ 31) holds.capacity
      have block := holds.block
      rw [show vector.n = items.length by omega] at block
      cases granted : alloc.granted (n * sz % 2 ^ 64) with
      | true =>
          have reserved : vector.reserve alloc ((vector.i + 1) % 2 ^ 32) =
              .ok (true, { vector with n := n, d := realloc alloc vector.d (n * sz % 2 ^ 64) }) := by
            rw [UtArray.reserve, counted, if_pos full, grown]
            exact if_pos granted
          exact absurd (vectorPushBack_reserved reserved pushed) failed
      | false =>
          have refused : vector.reserve alloc (items.length + 1) = .ok (false, { vector with n := n }) := by
            rw [UtArray.reserve, if_pos full, grown]
            exact if_neg (by rw [granted]; exact Bool.false_ne_true)
          simp only [vectorPushBack, counted, refused, Proc.ok_bind, Bool.not_false, ↓reduceIte,
            Proc.pure_eq_ok, Except.ok.injEq, Prod.mk.injEq] at pushed
          exact ⟨pushed.1.symm, block, room, n, enough, pushed.2.symm⟩
    · have reserved : vector.reserve alloc ((vector.i + 1) % 2 ^ 32) = .ok (true, vector) := by
        rw [UtArray.reserve, counted, if_neg full]
      exact absurd (vectorPushBack_reserved reserved pushed) failed
  · rw [holds.pushBack_diverges positive alloc element room] at pushed
    cases pushed

/-- A `nrm_vector_push_back` that fails leaves the elements as they were, but the
vector counts slots it never got: the next one writes behind the block, whatever the
allocator answers then. -/
theorem vector_push_back_after_refusal (positive : 0 < sz) (fits : sz ≤ 2 ^ 32) {vector after : UtArray sz}
    (reached : ReachableVector vector) {alloc : Allocator} {element : Element sz} {code : Int}
    (pushed : vectorPushBack alloc vector element = .ok (code, after)) (failed : code ≠ nrmSuccess) :
    code = -nrmEnomem ∧ after.i = vector.i ∧ after.d = vector.d ∧
      ∀ later next, vectorPushBack later after next = .error (.fault .danglingPointer) := by
  obtain ⟨items, holds⟩ := reached.holds positive fits
  obtain ⟨same, block, room, n, more, rfl⟩ := holds.pushBack_refused positive pushed failed
  refine ⟨same, rfl, rfl, ?_⟩
  intro later next
  have counted : (vector.i + 1) % 2 ^ 32 = items.length + 1 := by
    rw [holds.length]
    exact Nat.mod_eq_of_lt (by omega)
  have slot : eltptr sz vector.i = sz * items.length := by
    rw [holds.length, eltptr_eq fits (by omega)]
  have behind : Data.splice vector.d (sz * items.length) next.bytes = none := by
    rw [Data.splice, if_neg (by rw [next.length]; omega)]
  simp only [vectorPushBack, counted, UtArray.reserve, if_neg (by omega : ¬ n < items.length + 1), Proc.ok_bind,
    Bool.not_true, Bool.false_eq_true, ↓reduceIte, UtArray.store, slot, behind, Proc.error_bind]

def fullOps : List (VectorOp 1) := List.replicate 8 (.pushBack (byteElement 7) plenty)

def nothing : Allocator := ⟨fun _ => false, fun _ => 0xaa⟩

theorem vector_push_back_after_refusal_full :
    ∃ vector after : UtArray 1,
      vectorPushBack nothing vector (byteElement 8) = .ok (-nrmEnomem, after) ∧
      vectorPushBack plenty after (byteElement 9) = .error (.fault .danglingPointer) := by
  have pushed : vectorPushBack nothing ⟨8, 8, List.replicate 8 7⟩ (byteElement 8) =
      .ok (-nrmEnomem, ⟨8, 16, List.replicate 8 7⟩) := rfl
  have reached : ReachableVector (⟨8, 8, List.replicate 8 7⟩ : UtArray 1) :=
    ⟨fullOps, by simp [fullOps, VectorOp.Granted, plenty], List.replicate 8 (.code 0), rfl⟩
  exact ⟨_, _, pushed, (vector_push_back_after_refusal (by decide) (by decide) reached pushed
    (by decide)).2.2.2 plenty (byteElement 9)⟩

end LibNrm
