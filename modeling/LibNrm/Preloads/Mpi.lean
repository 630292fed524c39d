import LibNrm.Control.Rates
import LibNrm.Preloads.Scopes

namespace LibNrm

inductive MpiCall where
  | allreduce
  | barrier
  | commSize
  | commRank
deriving DecidableEq, Repr

/-- What a wrapper sends, given what it reads from the clock. -/
def MpiCall.sends (nrmtime : NrmTime) : MpiCall → List (Event ℚ)
  | .allreduce | .barrier => [⟨nrmtime, 1⟩, ⟨nrmtime, 1⟩]
  | .commSize | .commRank => []

/-- The events of a process, in the order in which they are sent. -/
def mpiEvents (calls : List (MpiCall × NrmTime)) : List (Event ℚ) :=
  calls.flatMap fun call => call.1.sends call.2

def Event.received (e : Event ℚ) : Event ℚ := ⟨.fromns e.time.tons, e.value⟩

def doubled (items : List E) : List E := items.flatMap fun e => [e, e]

theorem filter_doubled (keep : E → Bool) (items : List E) :
    (doubled items).filter keep = doubled (items.filter keep) := by
  induction items with
  | nil => rfl
  | cons e items ih =>
      have step : (doubled (e :: items)).filter keep = [e, e].filter keep ++ doubled (items.filter keep) := by
        rw [doubled, List.flatMap_cons, List.filter_append, ← doubled, ih]
      rw [step]
      by_cases kept : keep e <;> simp [kept, doubled]

theorem map_doubled (change : E → F) (items : List E) :
    (doubled items).map change = doubled (items.map change) := by
  rw [doubled, doubled, List.map_flatMap, List.flatMap_map]
  rfl

theorem doubled_length (items : List E) : (doubled items).length = 2 * items.length := by
  induction items with
  | nil => rfl
  | cons e items ih =>
      rw [doubled, List.flatMap_cons, List.length_append, ← doubled, ih, List.length_cons]
      simp only [List.length_cons, List.length_nil]
      omega

theorem doubled_of_prefix {front items : List E} (begins : front <+: doubled items) :
    ∃ kept tail, front = doubled kept ++ tail ∧ tail.length ≤ 1 := by
  induction items generalizing front with
  | nil => exact ⟨[], [], List.prefix_nil.mp begins, Nat.zero_le _⟩
  | cons e items ih =>
      have unfolded : doubled (e :: items) = e :: e :: doubled items := rfl
      rw [unfolded] at begins
      rcases front with _ | ⟨first, _ | ⟨second, front⟩⟩
      · exact ⟨[], [], rfl, Nat.zero_le _⟩
      · exact ⟨[], [first], rfl, Nat.le_refl _⟩
      · obtain ⟨rfl, next⟩ := List.cons_prefix_cons.mp begins
        obtain ⟨rfl, rest⟩ := List.cons_prefix_cons.mp next
        obtain ⟨kept, tail, rfl, short⟩ := ih rest
        exact ⟨_ :: kept, tail, rfl, short⟩

theorem mpiEvents_doubled (calls : List (MpiCall × NrmTime)) :
    ∃ events, mpiEvents calls = doubled events := by
  induction calls with
  | nil => exact ⟨[], rfl⟩
  | cons call calls ih =>
      obtain ⟨events, same⟩ := ih
      obtain ⟨kind, nrmtime⟩ := call
      have step : mpiEvents ((kind, nrmtime) :: calls) = kind.sends nrmtime ++ doubled events := by
        rw [mpiEvents, List.flatMap_cons, ← mpiEvents, same]
      rw [step]
      cases kind with
      | allreduce => exact ⟨⟨nrmtime, 1⟩ :: events, rfl⟩
      | barrier => exact ⟨⟨nrmtime, 1⟩ :: events, rfl⟩
      | commSize => exact ⟨events, rfl⟩
      | commRank => exact ⟨events, rfl⟩

namespace Europar21

/-- How often the loop divides by zero. -/
def zeros (events : List (Event ℚ)) : Nat := (deltas events).count 0

theorem deltas_cons (first second : Event ℚ) (rest : List (Event ℚ)) :
    deltas (first :: second :: rest) = first.time.diff second.time :: deltas (second :: rest) := rfl

theorem deltas_length (events : List (Event ℚ)) : (deltas events).length = events.length - 1 := by
  rw [deltas, List.length_zipWith, List.length_tail]
  omega

theorem zeros_tail (first : Event ℚ) (rest : List (Event ℚ)) : zeros rest ≤ zeros (first :: rest) := by
  cases rest with
  | nil => exact Nat.zero_le _
  | cons second rest =>
      rw [zeros, zeros, deltas_cons]
      exact List.count_le_count_cons

theorem zeros_append (front back : List (Event ℚ)) : zeros front + zeros back ≤ zeros (front ++ back) := by
  induction front with
  | nil => exact Nat.le_of_eq (Nat.zero_add _)
  | cons first front ih =>
      cases front with
      | nil => exact (Nat.le_of_eq (Nat.zero_add _)).trans (zeros_tail first back)
      | cons second front =>
          simp only [zeros, List.cons_append, deltas_cons, List.count_cons] at ih ⊢
          omega

theorem diff_self (time : NrmTime) : time.diff time = 0 := by
  simp [NrmTime.diff, int64]

theorem zeros_doubled (events : List (Event ℚ)) : events.length ≤ zeros (doubled events) := by
  induction events with
  | nil => exact Nat.zero_le _
  | cons e events ih =>
      have unfolded : doubled (e :: events) = e :: e :: doubled events := rfl
      have rest := zeros_tail e (doubled events)
      have once : zeros (e :: e :: doubled events) = zeros (e :: doubled events) + 1 := by
        rw [zeros, deltas_cons, diff_self, List.count_cons_self, zeros]
      rw [unfolded, once, List.length_cons]
      omega

/-- Two events with one time are in one slice, so a pair stays together. -/
theorem zeros_regrouped (kept tail : List (Event ℚ)) :
    kept.length ≤ zeros (Data.regrouped Event.slice (doubled kept ++ tail)) := by
  -- the slice of the first event is taken off whole
  induction length : (doubled kept ++ tail).length using Nat.strong_induction_on generalizing kept tail with
  | h size ih =>
      cases items : doubled kept ++ tail with
      | nil =>
          have none := congrArg List.length (List.append_eq_nil_iff.mp items).1
          rw [doubled_length] at none
          rw [show kept.length = 0 by simpa using none]
          exact Nat.zero_le _
      | cons e rest =>
          have split (keep : Event ℚ → Bool) :
              (e :: rest).filter keep = doubled (kept.filter keep) ++ tail.filter keep := by
            rw [← items, List.filter_append, filter_doubled]
          have others : (rest.filter fun other => other.slice ≠ e.slice) =
              doubled (kept.filter fun other => other.slice ≠ e.slice) ++
                tail.filter fun other => other.slice ≠ e.slice := by
            rw [← split, List.filter_cons_of_neg (by simp)]
          have shorter : (doubled (kept.filter fun other => other.slice ≠ e.slice) ++
              tail.filter fun other => other.slice ≠ e.slice).length < size := by
            rw [← others, ← length, items]
            exact Nat.lt_succ_of_le (List.length_filter_le _ _)
          have later := ih _ shorter _ _ rfl
          have first := zeros_doubled (kept.filter fun other => other.slice = e.slice)
          have here := zeros_append (doubled (kept.filter fun other => other.slice = e.slice))
            (tail.filter fun other => other.slice = e.slice)
          have all := zeros_append ((e :: rest).filter fun other => other.slice = e.slice)
            (Data.regrouped Event.slice (rest.filter fun other => other.slice ≠ e.slice))
          have parts := List.length_eq_length_filter_add (l := kept) fun other => decide (other.slice = e.slice)
          rw [Data.regrouped_cons, Data.group]
          rw [others] at all ⊢
          rw [split] at all ⊢
          simp only [ne_eq, decide_not] at later all parts ⊢
          omega

/-- However the clock runs and whenever the daemon looks, at least half of the rates
the controller computes from an MPI process are divisions by zero. -/
theorem mpi_rates_undefined (maxperiods : Nat) (calls : List (MpiCall × NrmTime))
    (ops : List (EventBase.Op ℚ)) (sensorUuid : NrmString) (scope : Scope) (since now : NrmTime)
    (own : EventBase.pushed sensorUuid scope.uuid ops <+: (mpiEvents calls).map Event.received) :
    ∃ eb ts, Data.run EventBase.step (EventBase.create maxperiods) ops = .ok eb ∧
      eb.pullTimeserie sensorUuid (.object scope) since now = .ok ts ∧
      (deltas ts.events).length ≤ 2 * (deltas ts.events).count 0 ∧
      (2 ≤ ts.events.length → 0 ∈ deltas ts.events) := by
  obtain ⟨eb, ts, ran, pulled, events⟩ :=
    EventBase.pullTimeserie_groups maxperiods ops sensorUuid scope since now
  rw [EventBase.groups_windowed] at events
  obtain ⟨sent, same⟩ := mpiEvents_doubled calls
  rw [same, map_doubled] at own
  obtain ⟨kept, tail, pushes, short⟩ := doubled_of_prefix own
  have window : ∃ kept tail, EventBase.windowed sensorUuid scope.uuid since now ops = doubled kept ++ tail ∧
      tail.length ≤ 1 := by
    rw [EventBase.windowed, pushes, List.filter_append, filter_doubled]
    exact ⟨_, _, rfl, (List.length_filter_le _ tail).trans short⟩
  obtain ⟨kept, tail, windowed, short⟩ := window
  rw [windowed] at events
  have vanish := zeros_regrouped kept tail
  have length := Data.regrouped_length Event.slice (doubled kept ++ tail)
  rw [List.length_append, doubled_length] at length
  rw [← events] at vanish length
  have half : (deltas ts.events).length ≤ 2 * (deltas ts.events).count 0 := by
    rw [deltas_length]
    unfold zeros at vanish
    omega
  refine ⟨eb, ts, ran, pulled, half, ?_⟩
  intro several
  rw [deltas_length] at half
  exact List.count_pos_iff.mp (by omega)

/-- A barrier and, at the time of the pull, a reduction that has not returned; between them
another sensor. -/
def sampleCalls : List (MpiCall × NrmTime) := [(.barrier, ⟨5, 0⟩), (.commRank, ⟨5, 5⟩), (.allreduce, ⟨6, 0⟩)]

def sampleMpi : List (EventBase.Op ℚ) :=
  [.push [115] (scopeCreate [103]) ⟨5, 0⟩ 1, .push [116] (scopeCreate [103]) ⟨5, 0⟩ 4,
    .push [115] (scopeCreate [103]) ⟨5, 0⟩ 1, .push [115] (scopeCreate [103]) ⟨6, 0⟩ 1]

theorem mpi_rates_undefined_sample :
    ∃ eb ts, Data.run EventBase.step (EventBase.create 5) sampleMpi = .ok eb ∧
      eb.pullTimeserie [115] (.object (scopeCreate [103])) ⟨4, 0⟩ ⟨7, 0⟩ = .ok ts ∧
      (deltas ts.events).length ≤ 2 * (deltas ts.events).count 0 := by
  have own : EventBase.pushed [115] (scopeCreate [103]).uuid sampleMpi <+:
      (mpiEvents sampleCalls).map Event.received := by decide
  obtain ⟨eb, ts, ran, pulled, half, _⟩ :=
    mpi_rates_undefined 5 sampleCalls sampleMpi [115] (scopeCreate [103]) ⟨4, 0⟩ ⟨7, 0⟩ own
  exact ⟨eb, ts, ran, pulled, half⟩

end Europar21

end LibNrm
