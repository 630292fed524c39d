import LibNrm.Utils.Basic
import LibNrm.Data.Bisection
import Mathlib.Data.List.Perm.Basic

namespace LibNrm

variable {α : Type}

/-- `nrm_vector_find`: the return code and `*pos`. -/
def vectorFind (comp : α → α → Int) (key : α) (vector : List α) (pos : Nat) : Int × Nat :=
  match vector.findIdx? fun elt => comp key elt = 0 with
  | some i => (nrmSuccess, i)
  | none => (-nrmFailure, pos)

/-- The `bsearch` of libc, with the result as an index. -/
def bsearch (comp : α → α → Int) (key : α) (vector : List α) : Option Nat :=
  let probe i := match vector[i]? with
    | some elt => comp key elt
    | none => 0
  Data.bisect probe vector.length 0 vector.length

/-- `nrm_vector_bsearch`: the return code and `*pos`. -/
def vectorBsearch (comp : α → α → Int) (key : α) (vector : List α) (pos : Nat) : Int × Nat :=
  match bsearch comp key vector with
  | some i => (nrmSuccess, i)
  | none => (-nrmFailure, pos)

/-- What `nrm_vector_sort` leaves in a vector.  The order of elements that compare
equal is not specified. -/
structure VectorSort (comp : α → α → Int) (vector sorted : List α) : Prop where
  perm : sorted.Perm vector
  ordered : sorted.Pairwise fun a b => comp a b ≤ 0

/-- A comparison as `qsort` wants it. -/
structure TotalPreorder (comp : α → α → Int) : Prop where
  swap : ∀ a b, comp a b < 0 ↔ 0 < comp b a
  trans : ∀ a b c, comp a b ≤ 0 → comp b c ≤ 0 → comp a c ≤ 0

/-- An index whose element matches the key. -/
def MatchAt (comp : α → α → Int) (key : α) (vector : List α) (i : Nat) : Prop :=
  ∃ elt, vector[i]? = some elt ∧ comp key elt = 0

/-- The first such index. -/
def FirstMatch (comp : α → α → Int) (key : α) (vector : List α) (i : Nat) : Prop :=
  MatchAt comp key vector i ∧ ∀ j < i, ¬ MatchAt comp key vector j

section Find

variable {comp : α → α → Int} {key : α} {vector : List α}

theorem vectorFind_cases (comp : α → α → Int) (key : α) (vector : List α) :
    (∃ i, FirstMatch comp key vector i ∧ ∀ pos, vectorFind comp key vector pos = (0, i)) ∨
      ((∀ i, ¬ MatchAt comp key vector i) ∧ ∀ pos, vectorFind comp key vector pos = (-1, pos)) := by
  cases found : vector.findIdx? fun elt => comp key elt = 0 with
  | some i =>
      obtain ⟨inside, here, before⟩ := List.findIdx?_eq_some_iff_getElem.mp found
      refine .inl ⟨i, ⟨⟨vector[i], List.getElem?_eq_getElem inside, by simpa using here⟩, ?_⟩, ?_⟩
      · intro j earlier matched
        obtain ⟨elt, read, same⟩ := matched
        obtain ⟨_, rfl⟩ := List.getElem?_eq_some_iff.mp read
        exact before j earlier (by simpa using same)
      · intro pos
        simp only [vectorFind, found, nrmSuccess]
  | none =>
      refine .inr ⟨?_, ?_⟩
      · intro i matched
        obtain ⟨elt, read, same⟩ := matched
        have differs := List.findIdx?_eq_none_iff.mp found elt (List.mem_of_getElem? read)
        simp [same] at differs
      · intro pos
        simp only [vectorFind, found, nrmFailure]

end Find

/-- The searches agree on a vector: they succeed together, and then with the first
element that matches. -/
def SearchesAgree (comp : α → α → Int) (key : α) (vector : List α) : Prop :=
  ∀ pos, ((vectorBsearch comp key vector pos).1 = 0 ↔ (vectorFind comp key vector pos).1 = 0) ∧
    ((vectorBsearch comp key vector pos).1 = 0 →
      FirstMatch comp key vector (vectorBsearch comp key vector pos).2 ∧
        (vectorBsearch comp key vector pos).2 = (vectorFind comp key vector pos).2)

/-- The first element that is not below the key, and the first above it. -/
def lowerBound (comp : α → α → Int) (key : α) (vector : List α) : Nat :=
  vector.findIdx fun elt => comp key elt ≤ 0

def upperBound (comp : α → α → Int) (key : α) (vector : List α) : Nat :=
  vector.findIdx fun elt => comp key elt < 0

section Sorted

variable {comp : α → α → Int} {sorted : List α}

theorem TotalPreorder.mono_lt (preorder : TotalPreorder comp) {key first second : α}
    (ordered : comp first second ≤ 0) (above : comp key first < 0) : comp key second < 0 := by
  have swapFirst := preorder.swap key first
  have swapSecond := preorder.swap key second
  have swapKey := preorder.swap second key
  by_contra atMost
  have back := preorder.trans first second key ordered (by omega)
  omega

theorem lowerBound_le_upperBound (comp : α → α → Int) (key : α) (vector : List α) :
    lowerBound comp key vector ≤ upperBound comp key vector := by
  by_contra crossed
  have inside : upperBound comp key vector < vector.length :=
    Nat.lt_of_lt_of_le (Nat.lt_of_not_le crossed) List.findIdx_le_length
  have above := List.findIdx_getElem (w := inside)
  have notBelow := List.not_of_lt_findIdx (Nat.lt_of_not_le crossed)
  simp only [decide_eq_true_eq, decide_eq_false_iff_not] at above notBelow
  exact notBelow (le_of_lt above)

theorem upperBound_le_length (comp : α → α → Int) (key : α) (vector : List α) :
    upperBound comp key vector ≤ vector.length := List.findIdx_le_length

/-- In a sorted vector each element is below, at or above the key according to its
index. -/
theorem located (preorder : TotalPreorder comp)
    (ordered : sorted.Pairwise fun a b => comp a b ≤ 0) (key : α) {i : Nat} {elt : α}
    (read : sorted[i]? = some elt) :
    (0 < comp key elt ↔ i < lowerBound comp key sorted) ∧
      (comp key elt < 0 ↔ upperBound comp key sorted ≤ i) := by
  obtain ⟨inside, rfl⟩ := List.getElem?_eq_some_iff.mp read
  have reflexive : comp sorted[i] sorted[i] ≤ 0 := by
    have swap := preorder.swap sorted[i] sorted[i]
    omega
  have later {j : Nat} (before : j ≤ i) : comp (sorted[j]) (sorted[i]) ≤ 0 := by
    rcases Nat.lt_or_eq_of_le before with less | rfl
    · exact List.pairwise_iff_getElem.mp ordered j i _ inside less
    · exact reflexive
  constructor
  · constructor
    · intro below
      by_contra behind
      have start : lowerBound comp key sorted < sorted.length := by omega
      have first := List.findIdx_getElem (w := start)
      simp only [decide_eq_true_eq] at first
      have atMost := preorder.trans key _ _ first (later (Nat.le_of_not_lt behind))
      omega
    · intro before
      have notAbove := List.not_of_lt_findIdx before
      simpa using notAbove
  · constructor
    · intro above
      by_contra before
      have notAbove := List.not_of_lt_findIdx (Nat.lt_of_not_le before)
      simp only [decide_eq_false_iff_not] at notAbove
      exact notAbove above
    · intro behind
      have start : upperBound comp key sorted < sorted.length := by omega
      have first := List.findIdx_getElem (w := start)
      simp only [decide_eq_true_eq] at first
      exact preorder.mono_lt (later behind) first

theorem matchAt_iff (preorder : TotalPreorder comp)
    (ordered : sorted.Pairwise fun a b => comp a b ≤ 0) (key : α) (i : Nat) :
    MatchAt comp key sorted i ↔ lowerBound comp key sorted ≤ i ∧ i < upperBound comp key sorted := by
  constructor
  · intro matched
    obtain ⟨elt, read, same⟩ := matched
    have place := located preorder ordered key read
    omega
  · intro bounds
    obtain ⟨lower, upper⟩ := bounds
    have inside : i < sorted.length := Nat.lt_of_lt_of_le upper List.findIdx_le_length
    have place := located preorder ordered key (List.getElem?_eq_getElem inside)
    exact ⟨sorted[i], List.getElem?_eq_getElem inside, by omega⟩

theorem firstMatch_iff (preorder : TotalPreorder comp)
    (ordered : sorted.Pairwise fun a b => comp a b ≤ 0) (key : α) (i : Nat) :
    FirstMatch comp key sorted i ↔
      i = lowerBound comp key sorted ∧ i < upperBound comp key sorted := by
  simp only [FirstMatch, matchAt_iff preorder ordered]
  constructor
  · intro isFirst
    obtain ⟨⟨lower, upper⟩, earlier⟩ := isFirst
    have first : ¬ lowerBound comp key sorted < i := fun before =>
      earlier _ before ⟨le_rfl, by omega⟩
    exact ⟨by omega, upper⟩
  · intro bounds
    obtain ⟨rfl, upper⟩ := bounds
    exact ⟨⟨le_rfl, upper⟩, fun j before inside => by omega⟩

theorem locates (preorder : TotalPreorder comp)
    (ordered : sorted.Pairwise fun a b => comp a b ≤ 0) (key : α) :
    Data.Locates (fun i => match sorted[i]? with | some elt => comp key elt | none => 0) 0
      sorted.length (lowerBound comp key sorted) (upperBound comp key sorted) where
  below i _ inside := by
    rw [List.getElem?_eq_getElem inside]
    exact (located preorder ordered key (List.getElem?_eq_getElem inside)).1
  above i _ inside := by
    rw [List.getElem?_eq_getElem inside]
    exact (located preorder ordered key (List.getElem?_eq_getElem inside)).2

/-- The halving finds a match if there is one, but not always the first. -/
theorem bsearch_cases (preorder : TotalPreorder comp)
    (ordered : sorted.Pairwise fun a b => comp a b ≤ 0) (key : α) :
    (∃ i, MatchAt comp key sorted i ∧ bsearch comp key sorted = some i) ∨
      ((∀ i, ¬ MatchAt comp key sorted i) ∧ bsearch comp key sorted = none) := by
  simp only [matchAt_iff preorder ordered]
  rcases Data.bisect_spec (Nat.sub_le sorted.length 0) (Nat.zero_le _)
    (upperBound_le_length comp key sorted) (lowerBound_le_upperBound comp key sorted)
    (locates preorder ordered key) with ⟨same, nothing⟩ | ⟨i, lower, upper, found⟩
  · exact .inr ⟨fun i inside => by omega, nothing⟩
  · exact .inl ⟨i, ⟨lower, upper⟩, found⟩

theorem bsearch_eq_first_iff (preorder : TotalPreorder comp)
    (ordered : sorted.Pairwise fun a b => comp a b ≤ 0) {key : α} {first : Nat}
    (isFirst : FirstMatch comp key sorted first) :
    bsearch comp key sorted = some first ↔
      ∀ j, MatchAt comp key sorted j → j < Data.reach sorted.length 0 sorted.length first := by
  obtain ⟨rfl, nonempty⟩ := (firstMatch_iff preorder ordered key first).mp isFirst
  have halving := Data.bisect_eq_first_iff (Nat.sub_le sorted.length 0) (Nat.zero_le _)
    (upperBound_le_length comp key sorted) nonempty (locates preorder ordered key)
  simp only [matchAt_iff preorder ordered]
  refine halving.trans ?_
  constructor
  · intro whole j inside
    exact Nat.lt_of_lt_of_le inside.2 whole
  · intro each
    have last := each (upperBound comp key sorted - 1) ⟨by omega, by omega⟩
    omega

end Sorted

/-- The binary search succeeds when the linear one does.  It returns the same
position exactly if the halving of the vector comes to the first match while every
other match is still in the interval it has at hand. -/
theorem searches_agree_iff (comp : α → α → Int) (preorder : TotalPreorder comp)
    (vector sorted : List α) (sort : VectorSort comp vector sorted) (key : α) :
    (∀ pos, (vectorBsearch comp key sorted pos).1 = 0 ↔ (vectorFind comp key sorted pos).1 = 0) ∧
    (SearchesAgree comp key sorted ↔
      ∀ first j, FirstMatch comp key sorted first → MatchAt comp key sorted j →
        j < Data.reach sorted.length 0 sorted.length first) := by
  have ordered := sort.ordered
  rcases vectorFind_cases comp key sorted with ⟨first, isFirst, found⟩ | ⟨nothing, failed⟩
  · rcases bsearch_cases preorder ordered key with ⟨i, isMatch, halved⟩ | ⟨nothing, _⟩
    · have halving := bsearch_eq_first_iff preorder ordered isFirst
      have result (pos : Nat) : vectorBsearch comp key sorted pos = (0, i) := by
        simp only [vectorBsearch, halved, nrmSuccess]
      refine ⟨fun pos => by rw [found, result], ?_⟩
      rw [halved, Option.some.injEq] at halving
      constructor
      · intro agree other j isFirstOther isMatchJ
        have same := ((agree 0).2 (by rw [result])).2
        rw [result, found] at same
        obtain ⟨rfl, _⟩ := (firstMatch_iff preorder ordered key other).mp isFirstOther
        obtain ⟨rfl, _⟩ := (firstMatch_iff preorder ordered key first).mp isFirst
        exact halving.mp same j isMatchJ
      · intro inReach pos
        have same : i = first := halving.mpr fun j isMatchJ => inReach first j isFirst isMatchJ
        rw [result, found, same]
        exact ⟨Iff.rfl, fun _ => ⟨isFirst, rfl⟩⟩
    · exact absurd isFirst.1 (nothing first)
  · rcases bsearch_cases preorder ordered key with ⟨i, isMatch, _⟩ | ⟨_, halved⟩
    · exact absurd isMatch (nothing i)
    · have result (pos : Nat) : vectorBsearch comp key sorted pos = (-1, pos) := by
        simp only [vectorBsearch, halved, nrmFailure]
      refine ⟨fun pos => by rw [failed, result], ?_⟩
      refine iff_of_true ?_ fun first j isFirst => absurd isFirst.1 (nothing first)
      intro pos
      rw [failed, result]
      exact ⟨Iff.rfl, fun success => by cases success⟩

def sampleComp (a b : Int) : Int := a - b

theorem sampleComp_preorder : TotalPreorder sampleComp where
  swap a b := by
    unfold sampleComp
    omega
  trans a b c := by
    unfold sampleComp
    omega

/-- Two equal elements behind a smaller one: the halving starts at the first. -/
theorem searches_agree_sample : SearchesAgree sampleComp 5 [1, 5, 5] := by
  have sort : VectorSort sampleComp [5, 1, 5] [1, 5, 5] := ⟨by decide, by decide⟩
  refine (searches_agree_iff sampleComp sampleComp_preorder [5, 1, 5] [1, 5, 5] sort 5).2.mpr ?_
  intro first j isFirst matched
  obtain ⟨elt, read, -⟩ := matched
  obtain ⟨rfl, _⟩ := (firstMatch_iff sampleComp_preorder sort.ordered 5 first).mp isFirst
  exact (List.getElem?_eq_some_iff.mp read).1

/-- Two equal elements and nothing else: it starts at the second. -/
theorem second_of_two_found :
    VectorSort sampleComp [5, 5] [5, 5] ∧ vectorFind sampleComp 5 [5, 5] 7 = (0, 0) ∧
      vectorBsearch sampleComp 5 [5, 5] 7 = (0, 1) ∧ ¬ SearchesAgree sampleComp 5 [5, 5] := by
  have found : vectorFind sampleComp 5 [5, 5] 7 = (0, 0) := by decide
  have halved : vectorBsearch sampleComp 5 [5, 5] 7 = (0, 1) := by decide
  refine ⟨⟨by decide, by decide⟩, found, halved, ?_⟩
  intro agree
  have same := ((agree 7).2 (by rw [halved])).2
  rw [found, halved] at same
  cases same

end LibNrm
