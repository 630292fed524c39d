import LibNrm.Control.Progress
import LibNrm.EventBase.Order

namespace LibNrm

theorem NrmTime.tons_bounds (time : NrmTime) : -(2 ^ 63) ≤ time.tons ∧ time.tons < 2 ^ 63 := by
  unfold NrmTime.tons int64
  rw [Int.bmod_def]
  split <;> omega

/-- Both counts wrap alike, so a difference can be taken from either. -/
theorem NrmTime.diff_eq_tons (start stop : NrmTime) :
    start.diff stop = int64 (stop.tons - start.tons) := by
  rw [NrmTime.diff_eq]
  unfold NrmTime.tons NrmTime.ns int64
  rw [Int.bmod_sub_bmod, Int.sub_bmod_bmod]

/-- The second time comes less than half a turn of `int64_t` after the first. -/
def NrmTime.Ahead (first second : NrmTime) : Prop :=
  (first.tons < second.tons ∧ second.tons - first.tons < 2 ^ 63) ∨
    second.tons + 2 ^ 63 < first.tons

theorem NrmTime.diff_pos_iff (first second : NrmTime) :
    0 < first.diff second ↔ first.Ahead second := by
  have firstBounds := first.tons_bounds
  have secondBounds := second.tons_bounds
  rw [NrmTime.diff_eq_tons, int64, Int.bmod_def, NrmTime.Ahead]
  split <;> omega

theorem sliceKey_near {first second : Int} (same : sliceKey first = sliceKey second) :
    -2000 < second - first ∧ second - first < 2000 := by
  have firstUpper := Int.tmod_lt_of_pos first (show (0 : Int) < 1000 by decide)
  have firstLower := Int.lt_tmod_of_pos first (show (0 : Int) < 1000 by decide)
  have secondUpper := Int.tmod_lt_of_pos second (show (0 : Int) < 1000 by decide)
  have secondLower := Int.lt_tmod_of_pos second (show (0 : Int) < 1000 by decide)
  unfold sliceKey at same
  omega

namespace Europar21

/-- The `delta` of each iteration of the loop. -/
def deltas (events : List (Event ℚ)) : List Int :=
  events.zipWith (fun prevE e => prevE.time.diff e.time) events.tail

theorem deltas_pos_iff {events : List (Event ℚ)} :
    (∀ delta ∈ deltas events, 0 < delta) ↔
      events.IsChain fun prevE e => prevE.time.Ahead e.time := by
  induction events with
  | nil => simp [deltas]
  | cons first rest ih =>
      cases rest with
      | nil => simp [deltas]
      | cons second rest =>
          have unfolded : deltas (first :: second :: rest) =
              first.time.diff second.time :: deltas (second :: rest) := rfl
          rw [unfolded, List.forall_mem_cons, ih, List.isChain_cons_cons, NrmTime.diff_pos_iff]

theorem frequencies_nonneg {first : Event ℚ} {rest : List (Event ℚ)}
    (positive : ∀ delta ∈ deltas (first :: rest), 0 < delta)
    (values : ∀ e ∈ rest, 0 ≤ e.value) : ∀ rate ∈ frequencies first rest, 0 ≤ rate := by
  induction rest generalizing first with
  | nil => simp [frequencies]
  | cons e rest ih =>
      have unfolded : deltas (first :: e :: rest) =
          first.time.diff e.time :: deltas (e :: rest) := rfl
      rw [unfolded, List.forall_mem_cons] at positive
      obtain ⟨value, laterValues⟩ := List.forall_mem_cons.mp values
      have delta : (0 : ℚ) < (first.time.diff e.time : Int) := by exact_mod_cast positive.1
      simp only [frequencies, List.forall_mem_cons]
      exact ⟨div_nonneg value (by positivity), ih positive.2 laterValues⟩

/-- What the pushes of a window must look like: each slice is filled in increasing order, and
each slice begins ahead of where the one that arrived before it ends. -/
structure Orderly (items : List (Event ℚ)) : Prop where
  within : items.Pairwise fun first second =>
    first.slice = second.slice → first.time.tons < second.time.tons
  across : (Data.arrivals Event.slice items).IsChain fun key next =>
    ∀ last ∈ (Data.group Event.slice items key).getLast?,
      ∀ first ∈ (Data.group Event.slice items next).head?, last.time.Ahead first.time

theorem ahead_iff_of_slice {first second : Event ℚ} (same : first.slice = second.slice) :
    first.time.Ahead second.time ↔ first.time.tons < second.time.tons := by
  have near := sliceKey_near same
  unfold NrmTime.Ahead
  omega

theorem isChain_group_iff (items : List (Event ℚ)) (key : Int) :
    ((Data.group Event.slice items key).IsChain fun prevE e => prevE.time.Ahead e.time) ↔
      (Data.group Event.slice items key).Pairwise fun first second =>
        first.time.tons < second.time.tons := by
  have trans : IsTrans (Event ℚ) fun first second => first.time.tons < second.time.tons :=
    ⟨fun _ _ _ => lt_trans⟩
  rw [← List.isChain_iff_pairwise]
  apply List.IsChain.iff_of_mem_imp
  intro first second inFirst inSecond
  have firstKey : first.slice = key := by simpa using (List.mem_filter.mp inFirst).2
  have secondKey : second.slice = key := by simpa using (List.mem_filter.mp inSecond).2
  exact ahead_iff_of_slice (firstKey.trans secondKey.symm)

theorem deltas_regrouped_iff (items : List (Event ℚ)) :
    (∀ delta ∈ deltas (Data.regrouped Event.slice items), 0 < delta) ↔ Orderly items := by
  rw [deltas_pos_iff, Data.isChain_regrouped]
  simp only [isChain_group_iff, Data.pairwise_group]
  exact ⟨fun parts => ⟨parts.1, parts.2⟩, fun orderly => ⟨orderly.within, orderly.across⟩⟩

theorem ahead_iff_of_nonneg {first second : NrmTime} (firstNonneg : 0 ≤ first.tons)
    (secondNonneg : 0 ≤ second.tons) : first.Ahead second ↔ first.tons < second.tons := by
  have firstBounds := first.tons_bounds
  have secondBounds := second.tons_bounds
  unfold NrmTime.Ahead
  omega

theorem across_iff_of_nonneg {items : List (Event ℚ)} (nonneg : ∀ e ∈ items, 0 ≤ e.time.tons) :
    ((Data.arrivals Event.slice items).IsChain fun key next =>
      ∀ last ∈ (Data.group Event.slice items key).getLast?,
        ∀ first ∈ (Data.group Event.slice items next).head?, last.time.Ahead first.time) ↔
      (Data.arrivals Event.slice items).Pairwise (· < ·) := by
  have member {key : Int} {e : Event ℚ} (listed : e ∈ Data.group Event.slice items key) :
      0 ≤ e.time.tons ∧ e.slice = key := by
    obtain ⟨inItems, same⟩ := List.mem_filter.mp listed
    exact ⟨nonneg e inItems, by simpa using same⟩
  constructor
  · intro chain
    have ordered : (Data.arrivals Event.slice items).IsChain (· ≤ ·) := by
      refine chain.imp_of_mem_imp fun key next inKeys inNext ahead => ?_
      have isLast := List.getLast?_eq_some_getLast (Data.group_ne_nil inKeys)
      have isFirst := List.head?_eq_some_head (Data.group_ne_nil inNext)
      obtain ⟨lastNonneg, lastKey⟩ := member (List.mem_of_getLast? isLast)
      obtain ⟨firstNonneg, firstKey⟩ := member (List.mem_of_head? isFirst)
      have later := (ahead_iff_of_nonneg lastNonneg firstNonneg).mp (ahead _ isLast _ isFirst)
      rw [← lastKey, ← firstKey]
      exact sliceKey_mono later.le
    exact (List.isChain_iff_pairwise.mp ordered).and
      (Data.arrivals_nodup Event.slice items) |>.imp fun both => lt_of_le_of_ne both.1 both.2
  · intro increasing
    refine increasing.isChain.imp fun key next less last isLast first isFirst => ?_
    obtain ⟨lastNonneg, lastKey⟩ := member (List.mem_of_getLast? isLast)
    obtain ⟨firstNonneg, firstKey⟩ := member (List.mem_of_head? isFirst)
    rw [ahead_iff_of_nonneg lastNonneg firstNonneg]
    by_contra notLater
    have back := sliceKey_mono (not_lt.mp notLater)
    rw [← lastKey, ← firstKey] at less
    exact absurd less (not_lt.mpr back)

theorem windowed_nonneg {sensorUuid uuid : NrmString} {since now : NrmTime}
    {ops : List (EventBase.Op ℚ)} (opens : 1000 ≤ since.tons) :
    ∀ e ∈ EventBase.windowed sensorUuid uuid since now ops, 0 ≤ e.time.tons := by
  intro e member
  have inside : timeToKey since ≤ e.slice ∧ e.slice < timeToKey now := by
    simpa using (List.mem_filter.mp member).2
  have start : 1000 ≤ timeToKey since := by
    unfold timeToKey
    rw [sliceKey_of_nonneg (by omega)]
    omega
  by_contra negative
  have rounded := sliceKey_of_neg (not_le.mp negative)
  simp only [Event.slice, timeToKey] at inside start
  omega

/-- After any history of pushes, the deltas of a pulled series are all positive
exactly when the pushes of its window were orderly.  For a window that opens
after the epoch, as every clock reading does, that is: each slice filled in
increasing order, and slices that first arrived in increasing order. -/
theorem deltas_pos_iff_orderly (maxperiods : Nat) (ops : List (EventBase.Op ℚ))
    (sensorUuid : NrmString) (scope : Scope) (since now : NrmTime) :
    ∃ eb ts, Data.run EventBase.step (EventBase.create maxperiods) ops = .ok eb ∧
      eb.pullTimeserie sensorUuid (.object scope) since now = .ok ts ∧
      ((∀ delta ∈ deltas ts.events, 0 < delta) ↔
        Orderly (EventBase.windowed sensorUuid scope.uuid since now ops)) ∧
      (1000 ≤ since.tons →
        (Orderly (EventBase.windowed sensorUuid scope.uuid since now ops) ↔
          (EventBase.windowed sensorUuid scope.uuid since now ops).Pairwise
            (fun first second =>
              first.slice = second.slice → first.time.tons < second.time.tons) ∧
          (Data.arrivals Event.slice
            (EventBase.windowed sensorUuid scope.uuid since now ops)).Pairwise (· < ·))) ∧
      (Orderly (EventBase.windowed sensorUuid scope.uuid since now ops) →
        (∀ e ∈ ts.events, 0 ≤ e.value) →
          ∀ diffs, progressDiffs ts.events = .ok diffs → ∀ rate ∈ diffs, 0 ≤ rate) := by
  obtain ⟨eb, ts, ran, pulled, events⟩ :=
    EventBase.pullTimeserie_groups maxperiods ops sensorUuid scope since now
  rw [EventBase.groups_windowed] at events
  have positive := deltas_regrouped_iff (EventBase.windowed sensorUuid scope.uuid since now ops)
  rw [← events] at positive
  refine ⟨eb, ts, ran, pulled, positive, ?_, ?_⟩
  · intro opens
    rw [← across_iff_of_nonneg (windowed_nonneg opens)]
    exact ⟨fun orderly => ⟨orderly.within, orderly.across⟩, fun parts => ⟨parts.1, parts.2⟩⟩
  · intro orderly values diffs computed
    have deltasPositive := positive.mpr orderly
    cases series : ts.events with
    | nil =>
        rw [series] at computed
        cases computed
    | cons first rest =>
        rw [series, progressDiffs_eq] at computed
        cases computed
        rw [series] at deltasPositive values
        exact frequencies_nonneg deltasPositive fun e member =>
          values e (List.mem_cons_of_mem _ member)

/-- What the wrapper of `MPI_Barrier` sends: two events with one time. -/
def sampleBarrier : List (EventBase.Op ℚ) :=
  [.push [115] (scopeCreate [103]) ⟨5, 0⟩ 1, .push [115] (scopeCreate [103]) ⟨5, 0⟩ 1]

theorem sampleBarrier_delta :
    ∃ eb ts, Data.run EventBase.step (EventBase.create 5) sampleBarrier = .ok eb ∧
      eb.pullTimeserie [115] (.object (scopeCreate [103])) ⟨4, 0⟩ ⟨6, 0⟩ = .ok ts ∧
      ts.events = [⟨⟨5, 0⟩, 1⟩, ⟨⟨5, 0⟩, 1⟩] ∧ deltas ts.events = [0] ∧
      ¬ ∀ delta ∈ deltas ts.events, 0 < delta := by
  obtain ⟨eb, ts, ran, pulled, events⟩ :=
    EventBase.pullTimeserie_groups 5 sampleBarrier [115] (scopeCreate [103]) ⟨4, 0⟩ ⟨6, 0⟩
  have series : ts.events = [⟨⟨5, 0⟩, 1⟩, ⟨⟨5, 0⟩, 1⟩] := events.trans (by decide)
  refine ⟨eb, ts, ran, pulled, series, ?_, ?_⟩
  · rw [series]
    decide
  · rw [series]
    decide

end Europar21

end LibNrm
