import LibNrm.Data.Run
import LibNrm.Timeserie
import Mathlib.Data.List.Perm.Basic
import Mathlib.Data.List.Flatten

namespace LibNrm

/-! Events are kept per sensor, per scope and per slice of `TIMESLICE_PERIOD`
nanoseconds.  Nothing in the database looks at the value of an event, so its
type is a parameter.  The names are those of `eventbase.c` without their prefix;
`nrm_eventbase_push_event` is cut at the three levels of the structure, and
each level at its find-or-create step.
-/

/-- The start of the slice a nanosecond count falls in, as C rounds it. -/
def sliceKey (ns : Int) : Int := ns - ns.tmod 1000

/-- `nrm_eb_time2key` -/
def timeToKey (time : NrmTime) : Int := sliceKey time.tons

theorem sliceKey_of_nonneg {ns : Int} (nonneg : 0 ≤ ns) : sliceKey ns = 1000 * (ns / 1000) := by
  unfold sliceKey
  rw [Int.tmod_eq_emod_of_nonneg nonneg]
  omega

/-- Before the epoch the rounding goes up instead of down, but not past zero. -/
theorem sliceKey_of_neg {ns : Int} (neg : ns < 0) : ns ≤ sliceKey ns ∧ sliceKey ns ≤ 0 := by
  have rounded : ns.tmod 1000 = -((-ns) % 1000) := by
    rw [← Int.tmod_eq_emod_of_nonneg (by omega : 0 ≤ -ns), Int.neg_tmod, neg_neg]
  unfold sliceKey
  rw [rounded]
  omega

theorem sliceKey_mono {first second : Int} (le : first ≤ second) :
    sliceKey first ≤ sliceKey second := by
  by_cases firstNonneg : 0 ≤ first
  · rw [sliceKey_of_nonneg firstNonneg, sliceKey_of_nonneg (by omega : 0 ≤ second)]
    omega
  · by_cases secondNonneg : 0 ≤ second
    · have lower := sliceKey_of_neg (by omega : first < 0)
      rw [sliceKey_of_nonneg secondNonneg]
      omega
    · have firstEq : first.tmod 1000 = -((-first) % 1000) := by
        rw [← Int.tmod_eq_emod_of_nonneg (by omega : 0 ≤ -first), Int.neg_tmod, neg_neg]
      have secondEq : second.tmod 1000 = -((-second) % 1000) := by
        rw [← Int.tmod_eq_emod_of_nonneg (by omega : 0 ≤ -second), Int.neg_tmod, neg_neg]
      unfold sliceKey
      omega

structure ScopeBase (α : Type) where
  uuid : NrmString
  slices : Data.Table Int (List (Event α))
deriving DecidableEq, Repr

structure SensorBase (α : Type) where
  uuid : NrmString
  scopes : Hash (ScopeBase α)
deriving DecidableEq, Repr

structure EventBase (α : Type) where
  maxperiods : Nat
  sensors : Hash (SensorBase α)
deriving DecidableEq, Repr

variable {α : Type}

namespace ScopeBase

def addTimeslice (sc : ScopeBase α) (key : Int) : ScopeBase α :=
  { sc with slices := sc.slices.append key [] }

def addEvent (sc : ScopeBase α) (key : Int) (e : Event α) : ScopeBase α :=
  { sc with slices := sc.slices.modify key fun events => events ++ [e] }

def pushEvent (sc : ScopeBase α) (e : Event α) : ScopeBase α :=
  let key := timeToKey e.time
  let sc :=
    match sc.slices.lookup key with
    | none => sc.addTimeslice key
    | some _ => sc
  sc.addEvent key e

end ScopeBase

namespace SensorBase

def addScope (sb : SensorBase α) (uuid : NrmString) : SensorBase α :=
  { sb with scopes := (Hash.add sb.scopes uuid ⟨uuid, .empty⟩).2 }

def findOrAddScope (sb : SensorBase α) (uuid : NrmString) : Exec (SensorBase α) :=
  if sb.scopes.entries = [] then pure (sb.addScope uuid)
  else do
    let err := (sb.scopes.find uuid).1
    assert (err = 0 ∨ err = -nrmEnotfound)
    if err = -nrmEnotfound then pure (sb.addScope uuid) else pure sb

def pushEvent (sb : SensorBase α) (uuid : NrmString) (e : Event α) : Exec (SensorBase α) := do
  let sb ← sb.findOrAddScope uuid
  let sc ← deref (sb.scopes.find uuid).2
  pure { sb with scopes := sb.scopes.modify uuid fun _ => sc.pushEvent e }

end SensorBase

namespace EventBase

def create (maxperiods : Nat) : EventBase α := ⟨maxperiods, .empty⟩

def addSensor (eb : EventBase α) (uuid : NrmString) : EventBase α :=
  { eb with sensors := (Hash.add eb.sensors uuid ⟨uuid, .empty⟩).2 }

def findOrAddSensor (eb : EventBase α) (uuid : NrmString) : Exec (EventBase α) :=
  if eb.sensors.entries = [] then pure (eb.addSensor uuid)
  else do
    let err := (eb.sensors.find uuid).1
    assert (err = 0 ∨ err = -nrmEnotfound)
    if err = -nrmEnotfound then pure (eb.addSensor uuid) else pure eb

def pushEvent (eb : EventBase α) (sensorUuid : NrmString) (scope : Option Scope) (time : NrmTime)
    (value : α) : Exec (Int × EventBase α) :=
  match scope with
  | none => .ok (-nrmEinval, eb)
  | some scope => do
      let eb ← eb.findOrAddSensor sensorUuid
      let sb ← deref (eb.sensors.find sensorUuid).2
      let sb ← sb.pushEvent scope.uuid ⟨time, value⟩
      pure (0, { eb with sensors := eb.sensors.modify sensorUuid fun _ => sb })

/-- The `HASH_ITER` of `nrm_eventbase_pull_timeserie`. -/
def pullSlices (ksince know : Int) (ret : Timeserie α) (slices : List (Int × List (Event α))) :
    Timeserie α :=
  slices.foldl (fun ret tl =>
    if tl.1 ≥ ksince ∧ tl.1 < know then ret.addEvents tl.2 else ret) ret

/-- `nrm_eventbase_pull_timeserie`, with the clock reading it takes.  A NULL
scope makes `nrm_timeserie_create` fail and leaves the result uninitialised;
any other scope is followed only once the sensor is known. -/
def pullTimeserie (eb : EventBase α) (sensorUuid : NrmString) (scope : Ptr Scope)
    (since now : NrmTime) : Exec (Timeserie α) :=
  let ret := Timeserie.create sensorUuid scope
  match scope with
  | .null => .error .danglingPointer
  | .freedElement =>
      match (eb.sensors.find sensorUuid).2 with
      | none => .ok ret
      | some _ => .error .danglingPointer
  | .object scope =>
      match (eb.sensors.find sensorUuid).2 with
      | none => .ok ret
      | some sb =>
          match (sb.scopes.find scope.uuid).2 with
          | none => .ok ret
          | some sc => .ok (pullSlices (timeToKey since) (timeToKey now) ret sc.slices.entries)

/-- `nrm_eventbase_tick` removes nothing. -/
def tick (eb : EventBase α) (_time : NrmTime) : EventBase α := eb

end EventBase

def ScopeBase.content (sc : ScopeBase α) : List (Event α) := sc.slices.values.flatten

def SensorBase.content (sb : SensorBase α) (uuid : NrmString) : List (Event α) :=
  match sb.scopes.lookup uuid with
  | none => []
  | some sc => sc.content

def EventBase.content (eb : EventBase α) (sensorUuid uuid : NrmString) : List (Event α) :=
  match eb.sensors.lookup sensorUuid with
  | none => []
  | some sb => sb.content uuid

/-- Every event lies in the slice of its own time. -/
def ScopeBase.Sliced (sc : ScopeBase α) : Prop :=
  sc.slices.All fun key events => ∀ e ∈ events, timeToKey e.time = key

def EventBase.Sliced (eb : EventBase α) : Prop :=
  eb.sensors.All fun _ sb => sb.scopes.All fun _ sc => sc.Sliced

theorem modify_flatten_perm {K β : Type} [DecidableEq K] {table : Data.Table K (List β)} {key : K}
    (item : β) (present : ∃ items, table.lookup key = some items) :
    (table.modify key fun items => items ++ [item]).values.flatten.Perm
      (table.values.flatten ++ [item]) := by
  obtain ⟨entries⟩ := table
  obtain ⟨items, found⟩ := present
  simp only [Data.Table.values, Data.Table.modify]
  induction entries with
  | nil => simp [Data.Table.lookup] at found
  | cons entry rest ih =>
      obtain ⟨first, stored⟩ := entry
      simp only [Data.Table.modifyEntries]
      by_cases here : first = key
      · simp only [here, ↓reduceIte, List.map_cons, List.flatten_cons, List.append_assoc]
        exact List.Perm.append_left stored List.perm_append_comm
      · have later : (⟨rest⟩ : Data.Table K (List β)).lookup key = some items := by
          simpa [Data.Table.lookup, here] using found
        simp only [here, ↓reduceIte, List.map_cons, List.flatten_cons, List.append_assoc]
        exact List.Perm.append_left stored (ih later)

theorem ScopeBase.pushEvent_content (sc : ScopeBase α) (e : Event α) :
    (sc.pushEvent e).content.Perm (sc.content ++ [e]) := by
  simp only [pushEvent, addEvent, content]
  cases found : sc.slices.lookup (timeToKey e.time) with
  | some events => exact modify_flatten_perm e ⟨events, found⟩
  | none =>
      have present : (sc.slices.append (timeToKey e.time) []).lookup (timeToKey e.time) = some [] :=
        Data.Table.lookup_append_self [] found
      have appended := modify_flatten_perm e ⟨[], present⟩
      have same : (sc.slices.append (timeToKey e.time) []).values.flatten = sc.slices.values.flatten := by
        simp [Data.Table.values, Data.Table.append]
      rw [same] at appended
      exact appended

theorem ScopeBase.Sliced.pushEvent {sc : ScopeBase α} (sliced : sc.Sliced) (e : Event α) :
    (sc.pushEvent e).Sliced := by
  have extended (table : Data.Table Int (List (Event α)))
      (all : table.All fun key events => ∀ e ∈ events, timeToKey e.time = key) :
      (table.modify (timeToKey e.time) fun events => events ++ [e]).All
        fun key events => ∀ e ∈ events, timeToKey e.time = key := by
    apply all.modify
    intro events keyed other member
    rcases List.mem_append.mp member with old | new
    · exact keyed other old
    · rw [List.mem_singleton.mp new]
  simp only [Sliced, ScopeBase.pushEvent, addEvent]
  cases sc.slices.lookup (timeToKey e.time) with
  | some events => exact extended _ sliced
  | none => exact extended _ (sliced.append (by simp))

end LibNrm
