import LibNrm.Data.Grouping
import LibNrm.EventBase.Exactness

namespace LibNrm

variable {α : Type}

/-- The start of the slice an event falls in. -/
def Event.slice (e : Event α) : Int := timeToKey e.time

def SensorBase.slices (sb : SensorBase α) (uuid : NrmString) : Data.Table Int (List (Event α)) :=
  match sb.scopes.lookup uuid with
  | none => .empty
  | some sc => sc.slices

def EventBase.slices (eb : EventBase α) (sensorUuid uuid : NrmString) :
    Data.Table Int (List (Event α)) :=
  match eb.sensors.lookup sensorUuid with
  | none => .empty
  | some sb => sb.slices uuid

theorem ScopeBase.pushEvent_slices (sc : ScopeBase α) (e : Event α) :
    (sc.pushEvent e).slices = sc.slices.pushUnder e.slice e := by
  simp only [ScopeBase.pushEvent, ScopeBase.addEvent, Data.Table.pushUnder, Event.slice]
  cases sc.slices.lookup (timeToKey e.time) with
  | none => rfl
  | some events => rfl

theorem SensorBase.slices_scopeBase (sb : SensorBase α) (uuid : NrmString) :
    (sb.scopeBase uuid).slices = sb.slices uuid := by
  rw [SensorBase.scopeBase, SensorBase.slices]
  cases sb.scopes.lookup uuid <;> rfl

theorem SensorBase.pushEvent_slices (sb : SensorBase α) (uuid : NrmString) (e : Event α) :
    ∃ after, sb.pushEvent uuid e = .ok after ∧
      ∀ other, after.slices other =
        if other = uuid then (sb.slices other).pushUnder e.slice e else sb.slices other := by
  refine ⟨_, sb.pushEvent_eq uuid e, ?_⟩
  intro other
  by_cases same : other = uuid
  · subst same
    have after := (sb.scopeBase other).pushEvent_slices e
    rw [sb.slices_scopeBase] at after
    simpa [SensorBase.slices, ensured_modify_lookup] using after
  · simp only [SensorBase.slices, ensured_modify_lookup, same, ↓reduceIte]

theorem EventBase.slices_sensorBase (eb : EventBase α) (sensorUuid uuid : NrmString) :
    (eb.sensorBase sensorUuid).slices uuid = eb.slices sensorUuid uuid := by
  rw [EventBase.sensorBase, EventBase.slices]
  cases eb.sensors.lookup sensorUuid <;> rfl

theorem EventBase.pushEvent_slices (eb : EventBase α) (sensorUuid : NrmString) (scope : Scope)
    (time : NrmTime) (value : α) :
    ∃ after, eb.pushEvent sensorUuid (some scope) time value = .ok (0, after) ∧
      ∀ sensor uuid, after.slices sensor uuid =
        if sensor = sensorUuid ∧ uuid = scope.uuid
          then (eb.slices sensor uuid).pushUnder (timeToKey time) ⟨time, value⟩
          else eb.slices sensor uuid := by
  obtain ⟨pushed, push, slices⟩ :=
    (eb.sensorBase sensorUuid).pushEvent_slices scope.uuid ⟨time, value⟩
  refine ⟨_, EventBase.pushEvent_eq push, ?_⟩
  intro sensor uuid
  by_cases same : sensor = sensorUuid
  · subst same
    have after := slices uuid
    rw [eb.slices_sensorBase] at after
    simpa [EventBase.slices, ensured_modify_lookup, Event.slice] using after
  · simp only [EventBase.slices, ensured_modify_lookup, same, ↓reduceIte, false_and]

namespace EventBase

/-- The database after a history: under each sensor and scope, the groups of what was pushed
there. -/
def Grouped (eb : EventBase α) (ops : List (Op α)) : Prop :=
  ∀ sensorUuid uuid, (eb.slices sensorUuid uuid).entries =
    Data.groups Event.slice (pushed sensorUuid uuid ops)

theorem pullTimeserie_slices (eb : EventBase α) (sensorUuid : NrmString) (scope : Scope)
    (since now : NrmTime) :
    ∃ ts, eb.pullTimeserie sensorUuid (.object scope) since now = .ok ts ∧
      ts.events = ((eb.slices sensorUuid scope.uuid).entries.filter fun tl =>
        timeToKey since ≤ tl.1 ∧ tl.1 < timeToKey now).flatMap Prod.snd := by
  simp only [EventBase.pullTimeserie, Hash.find_snd, EventBase.slices, SensorBase.slices]
  cases eb.sensors.lookup sensorUuid with
  | none => exact ⟨_, rfl, rfl⟩
  | some sb =>
      simp only
      cases sb.scopes.lookup scope.uuid with
      | none => exact ⟨_, rfl, rfl⟩
      | some sc =>
          refine ⟨_, rfl, ?_⟩
          rw [pullSlices_events]
          rfl

theorem Grouped.step {eb : EventBase α} {ops : List (Op α)} (grouped : eb.Grouped ops)
    (op : Op α) : ∃ after, eb.step op = .ok after ∧ after.Grouped (ops ++ [op]) := by
  cases op with
  | push sensor scope time value =>
      obtain ⟨after, pushes, slices⟩ := eb.pushEvent_slices sensor scope time value
      refine ⟨after, by simp [EventBase.step, pushes], ?_⟩
      intro sensorUuid uuid
      rw [slices, pushed_snoc]
      by_cases here : sensorUuid = sensor ∧ uuid = scope.uuid
      · obtain ⟨rfl, rfl⟩ := here
        simp only [and_self, ↓reduceIte, Op.pushed, Option.toList_some]
        exact Data.entries_pushUnder Event.slice (grouped sensorUuid scope.uuid) ⟨time, value⟩
      · have elsewhere : ¬ (sensor = sensorUuid ∧ scope.uuid = uuid) :=
          fun same => here ⟨same.1.symm, same.2.symm⟩
        simp only [here, elsewhere, ↓reduceIte, Op.pushed, Option.toList_none, List.append_nil]
        exact grouped sensorUuid uuid
  | tick time =>
      refine ⟨eb, rfl, ?_⟩
      intro sensorUuid uuid
      rw [pushed_snoc]
      simpa [Op.pushed] using grouped sensorUuid uuid
  | pull sensor scope since now =>
      obtain ⟨ts, pulled, _⟩ := eb.pullTimeserie_slices sensor scope since now
      refine ⟨eb, by simp [EventBase.step, pulled], ?_⟩
      intro sensorUuid uuid
      rw [pushed_snoc]
      simpa [Op.pushed] using grouped sensorUuid uuid

theorem run_grouped (maxperiods : Nat) (ops : List (Op α)) :
    ∃ eb, Data.run step (create maxperiods) ops = .ok eb ∧ eb.Grouped ops := by
  induction ops using List.reverseRecOn with
  | nil => exact ⟨create maxperiods, rfl, fun _ _ => rfl⟩
  | append_singleton ops op ih =>
      obtain ⟨eb, ran, grouped⟩ := ih
      obtain ⟨after, stepped, groupedAfter⟩ := grouped.step op
      exact ⟨after, by rw [Data.run_snoc op ran, stepped], groupedAfter⟩

theorem pullTimeserie_groups (maxperiods : Nat) (ops : List (Op α)) (sensorUuid : NrmString)
    (scope : Scope) (since now : NrmTime) :
    ∃ eb ts, Data.run step (create maxperiods) ops = .ok eb ∧
      eb.pullTimeserie sensorUuid (.object scope) since now = .ok ts ∧
      ts.events = ((Data.groups Event.slice (pushed sensorUuid scope.uuid ops)).filter fun tl =>
        timeToKey since ≤ tl.1 ∧ tl.1 < timeToKey now).flatMap Prod.snd := by
  obtain ⟨eb, ran, grouped⟩ := run_grouped maxperiods ops
  obtain ⟨ts, pulled, events⟩ := eb.pullTimeserie_slices sensorUuid scope since now
  rw [grouped] at events
  exact ⟨eb, ts, ran, pulled, events⟩

/-- The pushes under a sensor and scope whose slice lies in a window, in arrival order. -/
def windowed (sensorUuid uuid : NrmString) (since now : NrmTime) (ops : List (Op α)) :
    List (Event α) :=
  (pushed sensorUuid uuid ops).filter fun e => timeToKey since ≤ e.slice ∧ e.slice < timeToKey now

theorem groups_windowed (sensorUuid uuid : NrmString) (since now : NrmTime) (ops : List (Op α)) :
    ((Data.groups Event.slice (pushed sensorUuid uuid ops)).filter fun tl =>
        timeToKey since ≤ tl.1 ∧ tl.1 < timeToKey now).flatMap Prod.snd =
      Data.regrouped Event.slice (windowed sensorUuid uuid since now ops) := by
  rw [Data.groups_filter Event.slice
    (fun key => decide (timeToKey since ≤ key ∧ key < timeToKey now))]
  rfl

/-- The order of a pull: slices of the window as they first arrived, each with
its events as they arrived.  Pushes that never go back in time come out as the
windowed part of the pushes, in push order. -/
theorem pullTimeserie_order (maxperiods : Nat) (ops : List (Op α)) (sensorUuid : NrmString)
    (scope : Scope) (since now : NrmTime) :
    ∃ eb ts, Data.run step (create maxperiods) ops = .ok eb ∧
      eb.pullTimeserie sensorUuid (.object scope) since now = .ok ts ∧
      ts.events =
        ((Data.arrivals Event.slice (pushed sensorUuid scope.uuid ops)).filter fun key =>
          timeToKey since ≤ key ∧ key < timeToKey now).flatMap
            (Data.group Event.slice (pushed sensorUuid scope.uuid ops)) ∧
      ((pushed sensorUuid scope.uuid ops).Pairwise
          (fun first second => first.time.tons ≤ second.time.tons) →
        ts.events = windowed sensorUuid scope.uuid since now ops ∧
        ts.events.Pairwise fun first second => first.time.tons ≤ second.time.tons) := by
  obtain ⟨eb, ts, ran, pulled, events⟩ :=
    pullTimeserie_groups maxperiods ops sensorUuid scope since now
  refine ⟨eb, ts, ran, pulled, ?_, ?_⟩
  · rw [events, Data.groups, List.filter_map, List.flatMap_map]
    rfl
  · intro sorted
    have slices : (windowed sensorUuid scope.uuid since now ops).Pairwise
        fun first second => first.slice ≤ second.slice :=
      (sorted.imp fun le => sliceKey_mono le).sublist List.filter_sublist
    rw [events, groups_windowed, Data.regrouped_of_sorted slices]
    exact ⟨rfl, sorted.sublist List.filter_sublist⟩

def sampleOrdered : List (Op ℚ) :=
  [.push [115] (scopeCreate [103]) ⟨0, 1200⟩ 1, .push [116] (scopeCreate [103]) ⟨0, 100⟩ 7,
    .push [115] (scopeCreate [103]) ⟨0, 1300⟩ 2, .push [115] (scopeCreate [103]) ⟨0, 4000⟩ 3]

theorem sampleOrdered_pull :
    ∃ eb ts, Data.run step (create 5) sampleOrdered = .ok eb ∧
      eb.pullTimeserie [115] (.object (scopeCreate [103])) ⟨0, 1900⟩ ⟨0, 9000⟩ = .ok ts ∧
      ts.events = [⟨⟨0, 1200⟩, 1⟩, ⟨⟨0, 1300⟩, 2⟩, ⟨⟨0, 4000⟩, 3⟩] := by
  obtain ⟨eb, ts, ran, pulled, _, ordered⟩ :=
    pullTimeserie_order 5 sampleOrdered [115] (scopeCreate [103]) ⟨0, 1900⟩ ⟨0, 9000⟩
  exact ⟨eb, ts, ran, pulled, (ordered (by decide)).1.trans (by decide)⟩

end EventBase

end LibNrm
