import LibNrm.Data.Buffer
import LibNrm.Data.References
import LibNrm.Utils.Basic

namespace LibNrm

/-! `nrm_string_vjoin` keeps its result in a pointer that is sometimes a borrowed
element and sometimes a string of its own; `nrm_string_join` gives back what it
replaces.  Strings are addresses here, and counts exact numbers.
-/

/-- The strings of a process: their reference counts and bytes, the addresses not
handed out yet, and what `free` was called on. -/
structure StringHeap where
  refs : Data.RefCounts Nat
  bytes : Nat → NrmString
  next : Nat
  freed : List Nat
  unused : ∀ s, next ≤ s → refs.count s = 0

namespace StringHeap

theorem unused_create (heap : StringHeap) (s : Nat) (beyond : heap.next + 1 ≤ s) :
    (heap.refs.create heap.next).count s = 0 := by
  rw [Data.RefCounts.count_create, if_neg (by omega)]
  exact heap.unused s (by omega)

theorem unused_incref (heap : StringHeap) {s : Nat} {refs : Data.RefCounts Nat}
    (taken : heap.refs.incref s = some refs) (other : Nat) (beyond : heap.next ≤ other) :
    refs.count other = 0 := by
  have absent := heap.unused other beyond
  have apart : other ≠ s := by
    intro same
    subst same
    simp [Data.RefCounts.incref, absent] at taken
  rw [Data.RefCounts.count_incref taken, if_neg apart, absent]

theorem unused_decref (heap : StringHeap) {s : Nat} {refs : Data.RefCounts Nat}
    (given : heap.refs.decref s = some refs) (other : Nat) (beyond : heap.next ≤ other) :
    refs.count other = 0 := by
  have absent := heap.unused other beyond
  have counted := Data.RefCounts.count_decref given other
  omega

/-- `nrm_string_new`, and the bytes its callers copy into it. -/
def stringNew (heap : StringHeap) (content : NrmString) : StringHeap × Nat :=
  ({ heap with
     refs := heap.refs.create heap.next
     bytes := Function.update heap.bytes heap.next content
     next := heap.next + 1
     unused := heap.unused_create }, heap.next)

/-- `nrm_string_incref` -/
def stringIncref (heap : StringHeap) (s : Nat) : Exec StringHeap :=
  match taken : heap.refs.incref s with
  | none => .error .danglingPointer
  | some refs => .ok { heap with refs := refs, unused := heap.unused_incref taken }

/-- `nrm_string_decref` -/
def stringDecref (heap : StringHeap) (s : Nat) : Exec StringHeap :=
  match given : heap.refs.decref s with
  | none => .error .danglingPointer
  | some refs => .ok
      { heap with
        refs := refs
        freed := if refs.count s = 0 then heap.freed ++ [s] else heap.freed
        unused := heap.unused_decref given }

/-- Following a pointer to a string. -/
def content (heap : StringHeap) (s : Nat) : Exec NrmString :=
  if heap.refs.count s = 0 then .error .danglingPointer else .ok (heap.bytes s)

/-- `nrm_string_strlen` -/
def stringStrlen (heap : StringHeap) : Option Nat → Exec Nat
  | none => .ok 0
  | some s => do
      let bytes ← heap.content s
      pure bytes.length

/-- `nrm_string_join`, with what is in `*dest` afterwards. -/
def stringJoin (heap : StringHeap) (dest : Nat) (c : UInt8) : Option Nat → Exec (StringHeap × Nat)
  | none => .ok (heap, dest)
  | some src => do
      let front ← heap.content dest
      let back ← heap.content src
      let (heap, ret) := heap.stringNew (front ++ c :: back)
      let heap ← heap.stringDecref dest
      pure (heap, ret)

/-- The body of the loop of `nrm_string_vjoin`; `ret` is the result so far. -/
def vjoinStep (c : UInt8) : StringHeap × Nat → Option Nat → Exec (StringHeap × Nat)
  | (heap, ret), s => do
      let length ← heap.stringStrlen s
      if length = 0 then pure (heap, ret)
      else
        let sofar ← heap.stringStrlen (some ret)
        if sofar ≠ 0 then heap.stringJoin ret c s
        else
          match s with
          | none => .error .nullDereference
          | some s => do
              let heap ← heap.stringIncref s
              pure (heap, s)

/-- `nrm_string_vjoin` -/
def stringVjoin (heap : StringHeap) (c : UInt8) (vector : List (Option Nat)) :
    Exec (StringHeap × Nat) :=
  vector.foldlM (vjoinStep c) (heap.stringNew [])

theorem stringIncref_spec {heap : StringHeap} {s : Nat} (live : 0 < heap.refs.count s) :
    ∃ after, heap.stringIncref s = .ok after ∧ after.bytes = heap.bytes ∧ after.next = heap.next ∧
      after.freed = heap.freed ∧
      ∀ other, after.refs.count other = heap.refs.count other + if other = s then 1 else 0 := by
  unfold stringIncref
  split
  · rename_i refused
    obtain ⟨refs, taken⟩ := Data.RefCounts.incref_completes live
    cases refused.symm.trans taken
  · rename_i refs taken
    exact ⟨_, rfl, rfl, rfl, rfl, Data.RefCounts.count_incref taken⟩

theorem stringDecref_spec {heap : StringHeap} {s : Nat} (live : 0 < heap.refs.count s) :
    ∃ after, heap.stringDecref s = .ok after ∧ after.bytes = heap.bytes ∧ after.next = heap.next ∧
      after.freed = heap.freed ++ (if heap.refs.count s = 1 then [s] else []) ∧
      ∀ other, heap.refs.count other = after.refs.count other + if other = s then 1 else 0 := by
  unfold stringDecref
  split
  · rename_i refused
    obtain ⟨refs, given⟩ := Data.RefCounts.decref_completes live
    cases refused.symm.trans given
  · rename_i refs given
    have counted := Data.RefCounts.count_decref given
    refine ⟨_, rfl, rfl, rfl, ?_, counted⟩
    have here := counted s
    simp only [↓reduceIte] at here
    by_cases last : heap.refs.count s = 1
    · rw [if_pos (by omega), if_pos last]
    · rw [if_neg (by omega), if_neg last, List.append_nil]

theorem content_of_live {heap : StringHeap} {s : Nat} (live : 0 < heap.refs.count s) :
    heap.content s = .ok (heap.bytes s) := by
  rw [content, if_neg (by omega)]

theorem stringJoin_spec {heap : StringHeap} {dest src : Nat} (c : UInt8)
    (destLive : 0 < heap.refs.count dest) (srcLive : 0 < heap.refs.count src)
    (known : dest < heap.next) :
    ∃ after, heap.stringJoin dest c (some src) = .ok (after, heap.next) ∧
      after.bytes =
        Function.update heap.bytes heap.next (heap.bytes dest ++ c :: heap.bytes src) ∧
      after.next = heap.next + 1 ∧
      after.freed = heap.freed ++ (if heap.refs.count dest = 1 then [dest] else []) ∧
      ∀ other, (if other = heap.next then 1 else heap.refs.count other) =
        after.refs.count other + if other = dest then 1 else 0 := by
  have created := heap.refs.count_create heap.next
  have same : (heap.refs.create heap.next).count dest = heap.refs.count dest := by
    rw [created, if_neg (Nat.ne_of_lt known)]
  have still : 0 < (heap.stringNew (heap.bytes dest ++ c :: heap.bytes src)).1.refs.count dest :=
    same ▸ destLive
  obtain ⟨after, given, bytes, next, freed, counted⟩ := stringDecref_spec still
  refine ⟨after, ?_, bytes, next, ?_, ?_⟩
  · rw [stringJoin, content_of_live destLive, content_of_live srcLive]
    simp only [Exec.ok_bind, given]
    rfl
  · rw [freed]
    change _ ++ (if (heap.refs.create heap.next).count dest = 1 then [dest] else []) = _
    rw [same]
    rfl
  · intro other
    rw [← created]
    exact counted other

/-- A result is a string of its own, or an element that is not empty and has one
reference more; nothing else has changed for the strings there were. -/
structure Holding (heap state : StringHeap) (ret : Nat) : Prop where
  bytes : ∀ s < heap.next, state.bytes s = heap.bytes s
  counted : ∀ s < heap.next, state.refs.count s = heap.refs.count s + if s = ret then 1 else 0
  own : heap.next ≤ ret → state.refs.count ret = 1
  borrowed : ret < heap.next → 0 < heap.refs.count ret ∧ heap.bytes ret ≠ []
  known : ret < state.next
  grown : heap.next ≤ state.next
  released : ∃ freed, state.freed = heap.freed ++ freed ∧ ∀ s ∈ freed, heap.next ≤ s

theorem lt_next_of_live {heap : StringHeap} {s : Nat} (live : 0 < heap.refs.count s) :
    s < heap.next := by
  by_contra beyond
  have absent := heap.unused s (by omega)
  omega

namespace Holding

variable {heap state : StringHeap} {ret : Nat}

theorem live (holding : Holding heap state ret) : 0 < state.refs.count ret := by
  by_cases old : ret < heap.next
  · have counted := holding.counted ret old
    rw [if_pos rfl] at counted
    omega
  · have own := holding.own (by omega)
    omega

theorem live_of_live (holding : Holding heap state ret) {s : Nat} (live : 0 < heap.refs.count s) :
    0 < state.refs.count s := by
  have counted := holding.counted s (lt_next_of_live live)
  omega

theorem start (heap : StringHeap) : Holding heap (heap.stringNew []).1 heap.next where
  bytes s old := Function.update_of_ne (by omega) _ _
  counted s old := by
    rw [if_neg (by omega)]
    exact (heap.refs.count_create heap.next s).trans (if_neg (by omega))
  own _ := (heap.refs.count_create heap.next heap.next).trans (if_pos rfl)
  borrowed old := absurd old (Nat.lt_irrefl _)
  known := Nat.lt_succ_self heap.next
  grown := Nat.le_succ heap.next
  released := ⟨[], (List.append_nil _).symm, fun _ member => nomatch member⟩

/-- An empty result is let go, and the element is used in its place. -/
theorem borrow (holding : Holding heap state ret) (empty : state.bytes ret = []) {s : Nat}
    (live : 0 < heap.refs.count s) (filled : heap.bytes s ≠ []) :
    ∃ after, state.stringIncref s = .ok after ∧ Holding heap after s ∧
      after.bytes s = heap.bytes s := by
  have old := lt_next_of_live live
  have fresh : heap.next ≤ ret := by
    by_contra inside
    have kept := holding.bytes ret (by omega)
    exact (holding.borrowed (by omega)).2 (kept.symm.trans empty)
  obtain ⟨after, taken, bytes, next, freed, counted⟩ :=
    stringIncref_spec (holding.live_of_live live)
  refine ⟨after, taken, ?_, ?_⟩
  · constructor
    case bytes =>
      intro other inside
      rw [bytes, holding.bytes other inside]
    case counted =>
      intro other inside
      rw [counted, holding.counted other inside, if_neg (show other ≠ ret by omega), Nat.add_zero]
    case own =>
      intro beyond
      omega
    case borrowed =>
      intro _
      exact ⟨live, filled⟩
    case known =>
      rw [next]
      exact Nat.lt_of_lt_of_le old holding.grown
    case grown =>
      rw [next]
      exact holding.grown
    case released =>
      rw [freed]
      exact holding.released
  · rw [bytes, holding.bytes s old]

theorem own_of_last (holding : Holding heap state ret) (last : state.refs.count ret = 1) :
    heap.next ≤ ret := by
  by_contra inside
  have counted := holding.counted ret (by omega)
  have borrowed := (holding.borrowed (by omega)).1
  rw [if_pos rfl] at counted
  omega

/-- A join puts a new string in the place of the result and gives the old one back;
an element is not freed by that. -/
theorem join (holding : Holding heap state ret) (c : UInt8) {s : Nat}
    (live : 0 < heap.refs.count s) :
    ∃ after joined, state.stringJoin ret c (some s) = .ok (after, joined) ∧
      Holding heap after joined ∧ after.bytes joined = state.bytes ret ++ c :: heap.bytes s := by
  have grown := holding.grown
  have known := holding.known
  obtain ⟨after, done, bytes, next, freed, counted⟩ :=
    stringJoin_spec c holding.live (holding.live_of_live live) known
  refine ⟨after, state.next, done, ?_, ?_⟩
  · constructor
    case bytes =>
      intro other inside
      rw [bytes, Function.update_of_ne (by omega), holding.bytes other inside]
    case counted =>
      intro other inside
      have here := counted other
      rw [if_neg (by omega), holding.counted other inside] at here
      rw [if_neg (by omega)]
      omega
    case own =>
      intro _
      have here := counted state.next
      rw [if_pos rfl, if_neg (Nat.ne_of_gt known)] at here
      exact here.symm
    case borrowed =>
      intro inside
      omega
    case known =>
      rw [next]
      exact Nat.lt_succ_self state.next
    case grown =>
      rw [next]
      exact Nat.le_succ_of_le grown
    case released =>
      obtain ⟨gone, log, fresh⟩ := holding.released
      refine ⟨gone ++ (if state.refs.count ret = 1 then [ret] else []), ?_, ?_⟩
      · rw [freed, log, List.append_assoc]
      · intro other member
        rcases List.mem_append.mp member with earlier | now
        · exact fresh other earlier
        · split at now
          · rename_i last
            rw [List.mem_singleton.mp now]
            exact holding.own_of_last last
          · cases now
  · rw [bytes, Function.update_self, holding.bytes s (lt_next_of_live live)]

theorem release (holding : Holding heap state ret) :
    ∃ after, state.stringDecref ret = .ok after ∧
      ∀ s < heap.next, after.refs.count s = heap.refs.count s := by
  obtain ⟨after, given, -, -, -, counted⟩ := stringDecref_spec holding.live
  refine ⟨after, given, ?_⟩
  intro s old
  have here := counted s
  rw [holding.counted s old] at here
  omega

end Holding

/-- The elements that `nrm_string_vjoin` joins. -/
def parts (heap : StringHeap) (vector : List (Option Nat)) : List NrmString :=
  (vector.filterMap (fun s => s.map heap.bytes)).filter (fun bytes => bytes ≠ [])

/-- What the vector joins to. -/
def joined (heap : StringHeap) (c : UInt8) (vector : List (Option Nat)) : NrmString :=
  [c].intercalate (heap.parts vector)

variable {heap : StringHeap} {c : UInt8}

theorem parts_snoc (front : List (Option Nat)) (s : Option Nat) :
    heap.parts (front ++ [s]) = heap.parts front ++ heap.parts [s] := by
  rw [parts, parts, parts, List.filterMap_append, List.filter_append]

theorem joined_eq_nil_iff (vector : List (Option Nat)) :
    heap.joined c vector = [] ↔ heap.parts vector = [] := by
  constructor
  · intro empty
    by_contra nonempty
    refine Data.intercalate_ne_nil [c] nonempty ?_ empty
    intro part member
    simpa using (List.mem_filter.mp member).2
  · intro empty
    rw [joined, empty]
    rfl

theorem joined_skip {front : List (Option Nat)} {s : Option Nat} (skipped : heap.parts [s] = []) :
    heap.joined c (front ++ [s]) = heap.joined c front := by
  rw [joined, parts_snoc, skipped, List.append_nil, joined]

theorem parts_of_filled {s : Nat} (filled : heap.bytes s ≠ []) :
    heap.parts [some s] = [heap.bytes s] := by
  simp [parts, filled]

theorem vjoinStep_spec {state : StringHeap} {ret : Nat} {front : List (Option Nat)} {s : Option Nat}
    (holding : Holding heap state ret) (sofar : state.bytes ret = heap.joined c front)
    (live : ∀ key, s = some key → 0 < heap.refs.count key) :
    ∃ after next, vjoinStep c (state, ret) s = .ok (after, next) ∧ Holding heap after next ∧
      after.bytes next = heap.joined c (front ++ [s]) := by
  cases s with
  | none => exact ⟨state, ret, rfl, holding, sofar.trans (joined_skip rfl).symm⟩
  | some s =>
      have present := live s rfl
      have same := holding.bytes s (lt_next_of_live present)
      have read := content_of_live (holding.live_of_live present)
      by_cases empty : heap.bytes s = []
      · refine ⟨state, ret, ?_, holding, ?_⟩
        · simp [vjoinStep, stringStrlen, read, same, empty]
        · rw [sofar, joined_skip (by simp [parts, empty])]
      · by_cases begun : state.bytes ret = []
        · obtain ⟨after, taken, held, bytes⟩ := holding.borrow begun present empty
          refine ⟨after, s, ?_, held, ?_⟩
          · simp [vjoinStep, stringStrlen, read, same, empty, content_of_live holding.live, begun,
              taken]
          · have none : heap.parts front = [] :=
              (joined_eq_nil_iff front).mp (sofar.symm.trans begun)
            rw [bytes, joined, parts_snoc, none, parts_of_filled empty]
            simp
        · obtain ⟨after, next, added, held, bytes⟩ := holding.join c present
          refine ⟨after, next, ?_, held, ?_⟩
          · simp [vjoinStep, stringStrlen, read, same, empty, content_of_live holding.live, begun,
              added]
          · have some : heap.parts front ≠ [] := fun none =>
              begun (sofar.trans ((joined_eq_nil_iff front).mpr none))
            rw [bytes, sofar, joined, joined, parts_snoc, parts_of_filled empty,
              Data.intercalate_snoc [c] (heap.bytes s) some, List.append_assoc, List.singleton_append]

theorem vjoin_holds {vector : List (Option Nat)}
    (live : ∀ s, some s ∈ vector → 0 < heap.refs.count s) :
    ∃ after ret, heap.stringVjoin c vector = .ok (after, ret) ∧ Holding heap after ret ∧
      after.bytes ret = heap.joined c vector := by
  induction vector using List.reverseRecOn with
  | nil =>
      exact ⟨_, _, rfl, Holding.start heap, Function.update_self heap.next [] heap.bytes⟩
  | append_singleton front s ih =>
      obtain ⟨state, ret, ran, holding, sofar⟩ :=
        ih (fun key member => live key (List.mem_append_left _ member))
      obtain ⟨after, next, stepped, held, bytes⟩ := vjoinStep_spec holding sofar
        (fun key here => live key (List.mem_append_right _ (here ▸ List.mem_singleton_self _)))
      refine ⟨after, next, ?_, held, bytes⟩
      rw [stringVjoin, List.foldlM_append]
      rw [stringVjoin] at ran
      rw [ran]
      simp [stepped]

/-- `nrm_string_vjoin` returns the elements that are not empty with one separator
between them, frees none of the strings it was given, and leaves every count as it
was once its result is given back. -/
theorem vjoin_joins (heap : StringHeap) (c : UInt8) (vector : List (Option Nat))
    (live : ∀ s, some s ∈ vector → 0 < heap.refs.count s) :
    ∃ after ret, heap.stringVjoin c vector = .ok (after, ret) ∧
      after.stringStrlen (some ret) = .ok (heap.joined c vector).length ∧
      after.content ret = .ok (heap.joined c vector) ∧
      (∃ freed, after.freed = heap.freed ++ freed ∧ ∀ s, some s ∈ vector → s ∉ freed) ∧
      (∀ front, front <+: vector → ∃ during sofar, heap.stringVjoin c front = .ok (during, sofar) ∧
        ∀ s, some s ∈ vector → 0 < during.refs.count s) ∧
      ∃ released, after.stringDecref ret = .ok released ∧
        ∀ s, some s ∈ vector → released.refs.count s = heap.refs.count s := by
  obtain ⟨after, ret, ran, holding, bytes⟩ := vjoin_holds live
  obtain ⟨released, given, counts⟩ := holding.release
  obtain ⟨freed, log, fresh⟩ := holding.released
  have read := content_of_live holding.live
  rw [bytes] at read
  refine ⟨after, ret, ran, ?_, read, ⟨freed, log, ?_⟩, ?_, released, given, ?_⟩
  · simp [stringStrlen, read]
  · intro s member gone
    have old := lt_next_of_live (live s member)
    have new := fresh s gone
    omega
  · intro front before
    obtain ⟨during, sofar, ranFront, held, -⟩ := @vjoin_holds heap c front
      (fun s member => live s (before.subset member))
    exact ⟨during, sofar, ranFront, fun s member => held.live_of_live (live s member)⟩
  · intro s member
    exact counts s (lt_next_of_live (live s member))

def empty : StringHeap := ⟨.empty, fun _ => [], 0, [], fun _ _ => rfl⟩

def sampleHeap : StringHeap := (((empty.stringNew [97]).1.stringNew []).1.stringNew [98, 0]).1

theorem vjoin_joins_sample :
    ∃ after ret, sampleHeap.stringVjoin 58 [some 0, none, some 1, some 2, some 0] =
        .ok (after, ret) ∧
      after.content ret = .ok [97, 58, 98, 0, 58, 97] ∧
      ∃ released, after.stringDecref ret = .ok released ∧ released.refs.count 0 = 1 := by
  obtain ⟨after, ret, ran, -, read, -, -, released, given, counts⟩ :=
    vjoin_joins sampleHeap 58 [some 0, none, some 1, some 2, some 0] (by simp; decide)
  exact ⟨after, ret, ran, read, released, given, counts 0 (by decide)⟩

end StringHeap

end LibNrm
