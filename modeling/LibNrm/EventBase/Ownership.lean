import LibNrm.EventBase.Exactness
import LibNrm.Utils.Join

namespace LibNrm

/-! The keys of the two levels of tables are strings of the callers, shared by reference
counts.  Here a key is an address, and finding an entry follows the addresses of the
keys.  Counts are exact numbers.
-/

namespace StringHeap

variable {V : Type}

/-- `HASH_FIND`, which compares the bytes of keys.  Every key it passes is followed, where
uthash passes over those of another hash or length. -/
def hashWalk (heap : StringHeap) (bytes : NrmString) : List (Nat × V) → Exec (Option (Nat × V))
  | [] => .ok none
  | entry :: rest => do
      let stored ← heap.content entry.1
      if stored = bytes then pure (some entry) else heap.hashWalk bytes rest

/-- `nrm_hash_find`, with the element that is found. -/
def hashFind (heap : StringHeap) (table : Data.Table Nat V) (uuid : Nat) : Exec (Int × Option (Nat × V)) :=
  if table.entries = [] then .ok (-nrmEinval, none)
  else do
    let bytes ← heap.content uuid
    match ← heap.hashWalk bytes table.entries with
    | none => pure (-nrmEnotfound, none)
    | some entry => pure (nrmSuccess, some entry)

/-- `nrm_hash_add` -/
def hashAdd (heap : StringHeap) (table : Data.Table Nat V) (uuid : Nat) (ptr : V) :
    Exec (Int × Data.Table Nat V) := do
  let bytes ← heap.content uuid
  match ← heap.hashWalk bytes table.entries with
  | some _ => pure (-nrmFailure, table)
  | none => pure (nrmSuccess, table.append uuid ptr)

/-- `nrm_eventbase_add_sensor` and `nrm_eventbase_add_scope`, from their reference on. -/
def addEntry (heap : StringHeap) (table : Data.Table Nat V) (uuid : Nat) (fresh : V) :
    Exec (StringHeap × Data.Table Nat V × Nat) := do
  let heap ← heap.stringIncref uuid
  let (_, table) ← heap.hashAdd table uuid fresh
  pure (heap, table, uuid)

/-- The find-or-create step of both levels, with the key of the element it ends at. -/
def findOrAdd (heap : StringHeap) (table : Data.Table Nat V) (uuid : Nat) (fresh : V) :
    Exec (StringHeap × Data.Table Nat V × Nat) :=
  if table.entries = [] then heap.addEntry table uuid fresh
  else do
    let (err, found) ← heap.hashFind table uuid
    assert (err = 0 ∨ err = -nrmEnotfound)
    if err = -nrmEnotfound then heap.addEntry table uuid fresh
    else do
      let entry ← deref found
      pure (heap, table, entry.1)

def decrefAll (heap : StringHeap) (strings : List Nat) : Exec StringHeap :=
  strings.foldlM stringDecref heap

end StringHeap

/-- `nrm_scope_t` -/
structure ScopeRef where
  uuid : Nat
  cpu : Bitmap
  numa : Bitmap
  gpu : Bitmap

def ScopeRef.view (bytes : Nat → NrmString) (scope : ScopeRef) : Scope :=
  ⟨bytes scope.uuid, scope.cpu, scope.numa, scope.gpu⟩

structure ScopeCell (α : Type) where
  uuid : Nat
  slices : Data.Table Int (List (Event α))

structure SensorCell (α : Type) where
  uuid : Nat
  scopes : Data.Table Nat (ScopeCell α)

/-- `nrm_eventbase_t` -/
structure EventStore (α : Type) where
  maxperiods : Nat
  sensors : Data.Table Nat (SensorCell α)

variable {α : Type}

def ScopeCell.view (bytes : Nat → NrmString) (sc : ScopeCell α) : ScopeBase α :=
  ⟨bytes sc.uuid, sc.slices⟩

def SensorCell.view (bytes : Nat → NrmString) (sb : SensorCell α) : SensorBase α :=
  ⟨bytes sb.uuid, sb.scopes.rename bytes (ScopeCell.view bytes)⟩

/-- The event base that is meant. -/
def EventStore.view (bytes : Nat → NrmString) (eb : EventStore α) : EventBase α :=
  ⟨eb.maxperiods, eb.sensors.rename bytes (SensorCell.view bytes)⟩

namespace EventStore

def create (maxperiods : Nat) : EventStore α := ⟨maxperiods, .empty⟩

/-- The slices of a scope, which hold no strings, are those of `ScopeBase`. -/
def pushSlice (sc : ScopeCell α) (e : Event α) : ScopeCell α :=
  { sc with slices := (ScopeBase.pushEvent ⟨[], sc.slices⟩ e).slices }

def pushScope (heap : StringHeap) (sb : SensorCell α) (scope : Nat) (e : Event α) :
    Exec (StringHeap × SensorCell α) := do
  let (heap, scopes, key) ← heap.findOrAdd sb.scopes scope ⟨scope, .empty⟩
  let sc ← deref (scopes.lookup key)
  pure (heap, { sb with scopes := scopes.modify key fun _ => pushSlice sc e })

/-- `nrm_eventbase_push_event` -/
def pushEvent (heap : StringHeap) (eb : EventStore α) (sensor : Nat) (scope : ScopeRef) (e : Event α) :
    Exec (StringHeap × EventStore α) := do
  let (heap, sensors, key) ← heap.findOrAdd eb.sensors sensor ⟨sensor, .empty⟩
  let sb ← deref (sensors.lookup key)
  let (heap, sb) ← pushScope heap sb scope.uuid e
  pure (heap, { eb with sensors := sensors.modify key fun _ => sb })

/-- `nrm_eventbase_pull_timeserie`; the series holds a reference to the sensor's uuid. -/
def pullTimeserie (heap : StringHeap) (eb : EventStore α) (sensor : Nat) (scope : ScopeRef)
    (since now : NrmTime) : Exec (StringHeap × Timeserie α) := do
  let name ← heap.content sensor
  let heap ← heap.stringIncref sensor
  let ret := Timeserie.create name (.object (scope.view heap.bytes))
  match (← heap.hashFind eb.sensors sensor).2 with
  | none => pure (heap, ret)
  | some (_, sb) =>
      match (← heap.hashFind sb.scopes scope.uuid).2 with
      | none => pure (heap, ret)
      | some (_, sc) =>
          pure (heap, EventBase.pullSlices (timeToKey since) (timeToKey now) ret sc.slices.entries)

/-- The references of an entry, in the order in which they are given back. -/
def addresses (sb : SensorCell α) : List Nat := sb.scopes.values.map ScopeCell.uuid ++ [sb.uuid]

/-- `nrm_eventbase_destroy` -/
def destroy (heap : StringHeap) (eb : EventStore α) : Exec StringHeap :=
  eb.sensors.values.foldlM (fun heap sb => do
    let heap ← heap.decrefAll (sb.scopes.values.map ScopeCell.uuid)
    heap.stringDecref sb.uuid) heap

end EventStore

namespace StringHeap

variable {V W : Type} {heap : StringHeap} {table : Data.Table Nat V} {uuid : Nat} {fresh : V}

def Readable (heap : StringHeap) (table : Data.Table Nat V) : Prop := ∀ key ∈ table.keys, 0 < heap.refs.count key

theorem hashWalk_eq (readable : heap.Readable table) (bytes : NrmString) :
    heap.hashWalk bytes table.entries = .ok (table.named heap.bytes bytes) := by
  obtain ⟨entries⟩ := table
  unfold Data.Table.named
  induction entries with
  | nil => rfl
  | cons entry rest ih =>
      have live : 0 < heap.refs.count entry.1 := readable entry.1 (List.mem_map_of_mem List.mem_cons_self)
      have later : heap.Readable ⟨rest⟩ := fun key member => readable key (List.mem_cons_of_mem _ member)
      rw [hashWalk, content_of_live live, List.find?_cons, Exec.ok_bind]
      by_cases here : heap.bytes entry.1 = bytes
      · simp [here]
      · simp [here, ih later]

/-- What a find-or-create step ends with. -/
inductive Ensured (heap : StringHeap) (table : Data.Table Nat V) (uuid : Nat) (fresh : V) :
    StringHeap → Data.Table Nat V → Nat × V → Prop where
  | found {entry : Nat × V} (here : table.named heap.bytes (heap.bytes uuid) = some entry) :
      Ensured heap table uuid fresh heap table entry
  | added {after : StringHeap} (absent : table.named heap.bytes (heap.bytes uuid) = none)
      (bytes : after.bytes = heap.bytes) (next : after.next = heap.next)
      (counted : ∀ s, after.refs.count s = heap.refs.count s + if s = uuid then 1 else 0) :
      Ensured heap table uuid fresh after (table.append uuid fresh) (uuid, fresh)

theorem addEntry_spec (fresh : V) (readable : heap.Readable table) (live : 0 < heap.refs.count uuid)
    (absent : table.named heap.bytes (heap.bytes uuid) = none) :
    ∃ after, heap.addEntry table uuid fresh = .ok (after, table.append uuid fresh, uuid) ∧
      Ensured heap table uuid fresh after (table.append uuid fresh) (uuid, fresh) := by
  obtain ⟨after, taken, bytes, next, -, counted⟩ := stringIncref_spec live
  refine ⟨after, ?_, .added absent bytes next counted⟩
  have still : after.Readable table := by
    intro key member
    have more := counted key
    have before := readable key member
    omega
  have known : 0 < after.refs.count uuid := by
    have more := counted uuid
    omega
  rw [addEntry, taken, Exec.ok_bind, hashAdd, content_of_live known, Exec.ok_bind, hashWalk_eq still, bytes, absent]
  rfl

theorem findOrAdd_spec (fresh : V) (readable : heap.Readable table) (live : 0 < heap.refs.count uuid) :
    ∃ after changed entry, heap.findOrAdd table uuid fresh = .ok (after, changed, entry.1) ∧
      Ensured heap table uuid fresh after changed entry := by
  unfold findOrAdd
  by_cases empty : table.entries = []
  · have absent : table.named heap.bytes (heap.bytes uuid) = none := by simp [Data.Table.named, empty]
    obtain ⟨after, added, ensured⟩ := addEntry_spec fresh readable live absent
    rw [if_pos empty]
    exact ⟨after, _, (uuid, fresh), added, ensured⟩
  · rw [if_neg empty, hashFind, if_neg empty, content_of_live live, Exec.ok_bind, hashWalk_eq readable, Exec.ok_bind]
    cases found : table.named heap.bytes (heap.bytes uuid) with
    | none =>
        obtain ⟨after, added, ensured⟩ := addEntry_spec fresh readable live found
        refine ⟨after, _, (uuid, fresh), ?_, ensured⟩
        simp [added]
    | some entry => exact ⟨heap, table, entry, by simp [nrmSuccess, nrmEnotfound], .found found⟩

namespace Ensured

variable {after : StringHeap} {changed : Data.Table Nat V} {entry : Nat × V}

theorem bytes_eq (ensured : Ensured heap table uuid fresh after changed entry) : after.bytes = heap.bytes := by
  cases ensured with
  | found here => rfl
  | added absent bytes next counted => exact bytes

theorem next_eq (ensured : Ensured heap table uuid fresh after changed entry) : after.next = heap.next := by
  cases ensured with
  | found here => rfl
  | added absent bytes next counted => exact next

theorem named (ensured : Ensured heap table uuid fresh after changed entry) :
    changed.named heap.bytes (heap.bytes uuid) = some entry := by
  cases ensured with
  | found here => exact here
  | added absent bytes next counted =>
      unfold Data.Table.named Data.Table.append at *
      rw [List.find?_append, absent]
      simp

theorem rename (ensured : Ensured heap table uuid fresh after changed entry) (view : V → W) :
    changed.rename heap.bytes view =
      LibNrm.ensured (table.rename heap.bytes view) (heap.bytes uuid) (view fresh) := by
  unfold LibNrm.ensured
  rw [Data.Table.lookup_rename]
  cases ensured with
  | found here => rw [here]; rfl
  | added absent bytes next counted =>
      rw [absent, Data.Table.rename_append]
      rfl

theorem value (ensured : Ensured heap table uuid fresh after changed entry) (view : V → W) :
    view entry.2 = ((table.rename heap.bytes view).lookup (heap.bytes uuid)).getD (view fresh) := by
  rw [Data.Table.lookup_rename]
  cases ensured with
  | found here => rw [here]; rfl
  | added absent bytes next counted => rw [absent]; rfl

end Ensured

theorem hashFind_snd (readable : heap.Readable table) (live : 0 < heap.refs.count uuid) :
    ∃ code, heap.hashFind table uuid = .ok (code, table.named heap.bytes (heap.bytes uuid)) := by
  unfold hashFind
  by_cases empty : table.entries = []
  · rw [if_pos empty]
    refine ⟨-nrmEinval, ?_⟩
    simp [Data.Table.named, empty]
  · rw [if_neg empty, content_of_live live, Exec.ok_bind, hashWalk_eq readable, Exec.ok_bind]
    cases table.named heap.bytes (heap.bytes uuid) with
    | none => exact ⟨_, rfl⟩
    | some entry => exact ⟨_, rfl⟩

theorem decrefAll_append (heap : StringHeap) (first second : List Nat) :
    heap.decrefAll (first ++ second) = heap.decrefAll first >>= fun heap => heap.decrefAll second := by
  unfold decrefAll
  rw [List.foldlM_append]

theorem decrefAll_one (heap : StringHeap) (s : Nat) : heap.decrefAll [s] = heap.stringDecref s := by
  rw [decrefAll, List.foldlM_cons]
  cases heap.stringDecref s <;> rfl

theorem decrefAll_spec {strings : List Nat}
    (enough : ∀ s, strings.count s ≤ heap.refs.count s) :
    ∃ after, heap.decrefAll strings = .ok after ∧
      ∀ s, heap.refs.count s = after.refs.count s + strings.count s := by
  unfold decrefAll
  induction strings generalizing heap with
  | nil => exact ⟨heap, rfl, fun s => rfl⟩
  | cons first rest ih =>
      have live : 0 < heap.refs.count first := by
        have bound := enough first
        rw [List.count_cons_self] at bound
        omega
      obtain ⟨middle, given, -, -, -, counted⟩ := stringDecref_spec live
      have left : ∀ s, rest.count s ≤ middle.refs.count s := by
        intro s
        have bound := enough s
        have here := counted s
        rw [List.count_cons] at bound
        simp only [beq_iff_eq, @eq_comm _ first s] at bound
        omega
      obtain ⟨after, done, later⟩ := ih left
      refine ⟨after, ?_, ?_⟩
      · rw [List.foldlM_cons, given]
        exact done
      · intro s
        rw [counted, later, List.count_cons]
        simp only [beq_iff_eq, @eq_comm _ first s]
        omega

end StringHeap

theorem ScopeBase.pushEvent_uuid (uuid : NrmString) (slices : Data.Table Int (List (Event α))) (e : Event α) :
    ScopeBase.pushEvent ⟨uuid, slices⟩ e = ⟨uuid, (ScopeBase.pushEvent ⟨[], slices⟩ e).slices⟩ := by
  simp only [ScopeBase.pushEvent]
  cases slices.lookup (timeToKey e.time) <;> rfl

theorem ScopeCell.view_pushSlice (bytes : Nat → NrmString) (sc : ScopeCell α) (e : Event α) :
    (EventStore.pushSlice sc e).view bytes = (sc.view bytes).pushEvent e :=
  (ScopeBase.pushEvent_uuid (bytes sc.uuid) sc.slices e).symm

theorem count_one (s uuid : Nat) : [uuid].count s = if s = uuid then 1 else 0 := by
  rw [List.count_singleton]
  simp only [beq_iff_eq, @eq_comm _ uuid s]

namespace EventStore

def KeyedScopes (sb : SensorCell α) : Prop := sb.scopes.All fun key sc => sc.uuid = key

def Keyed (eb : EventStore α) : Prop := eb.sensors.All fun key sb => sb.uuid = key ∧ KeyedScopes sb

def references (eb : EventStore α) : List Nat := eb.sensors.values.flatMap addresses

theorem KeyedScopes.addresses_eq {sb : SensorCell α} (keyed : KeyedScopes sb) :
    addresses sb = sb.scopes.keys ++ [sb.uuid] := by
  unfold addresses Data.Table.values Data.Table.keys
  rw [List.map_map]
  congr 1
  apply List.map_congr_left
  intro entry member
  exact keyed entry member

structure Pushed (heap : StringHeap) (sb : SensorCell α) (scope : Nat) (e : Event α) (after : StringHeap)
    (pushed : SensorCell α) : Prop where
  bytes : after.bytes = heap.bytes
  next : after.next = heap.next
  uuid : pushed.uuid = sb.uuid
  keyed : KeyedScopes pushed
  counted : ∀ s, after.refs.count s + (addresses sb).count s = heap.refs.count s + (addresses pushed).count s
  view : (sb.view heap.bytes).pushEvent (heap.bytes scope) e = .ok (pushed.view heap.bytes)

theorem pushScope_spec {heap : StringHeap} {sb : SensorCell α} {scope : Nat} (e : Event α)
    (keyed : KeyedScopes sb) (readable : heap.Readable sb.scopes) (live : 0 < heap.refs.count scope) :
    ∃ after pushed, pushScope heap sb scope e = .ok (after, pushed) ∧ Pushed heap sb scope e after pushed := by
  obtain ⟨after, scopes, entry, found, ensured⟩ :=
    StringHeap.findOrAdd_spec (⟨scope, .empty⟩ : ScopeCell α) readable live
  have here := ensured.named
  have stored := Data.Table.lookup_of_named here
  have before : scopes.All fun key sc => sc.uuid = key := by
    cases ensured with
    | found here => exact keyed
    | added absent bytes next counted => exact Data.Table.All.append keyed rfl
  have same : entry.2.uuid = entry.1 := before.lookup stored
  have kept : KeyedScopes { sb with scopes := scopes.modify entry.1 fun _ => pushSlice entry.2 e } :=
    before.modify fun _ _ => same
  refine ⟨after, { sb with scopes := scopes.modify entry.1 fun _ => pushSlice entry.2 e }, ?_, ensured.bytes_eq,
    ensured.next_eq, rfl, kept, ?_, ?_⟩
  · rw [pushScope, found, Exec.ok_bind]
    simp only [stored, deref_some, Exec.ok_bind]
    rfl
  · intro s
    rw [kept.addresses_eq, keyed.addresses_eq, Data.Table.keys_modify]
    cases ensured with
    | found here => rfl
    | added absent bytes next counted =>
        rw [counted, Data.Table.keys_append]
        simp only [List.count_append, count_one]
        omega
  · have scopeBase : (sb.view heap.bytes).scopeBase (heap.bytes scope) = entry.2.view heap.bytes :=
      (ensured.value (ScopeCell.view heap.bytes)).symm
    rw [SensorBase.pushEvent_eq, scopeBase, ← ScopeCell.view_pushSlice]
    simp only [SensorCell.view, Data.Table.rename_modify here, ensured.rename]
    rfl

/-- The counts are those of the callers and of the base. -/
structure Owned (heap : StringHeap) (eb : EventStore α) (held : Nat → Nat) : Prop where
  keyed : eb.Keyed
  counted : ∀ s, heap.refs.count s = held s + eb.references.count s

variable {heap : StringHeap} {eb : EventStore α} {held : Nat → Nat}

theorem Owned.live (owned : Owned heap eb held) {s : Nat} (holds : 0 < held s) : 0 < heap.refs.count s := by
  rw [owned.counted]
  omega

theorem Owned.live_of_mem (owned : Owned heap eb held) {s : Nat} (member : s ∈ eb.references) :
    0 < heap.refs.count s := by
  have positive := List.count_pos_iff.mpr member
  rw [owned.counted]
  omega

theorem mem_references {eb : EventStore α} {key : Nat} {sb : SensorCell α} (stored : (key, sb) ∈ eb.sensors.entries)
    {s : Nat} (member : s ∈ addresses sb) : s ∈ eb.references :=
  List.mem_flatMap.mpr ⟨sb, List.mem_map_of_mem stored, member⟩

theorem Owned.readable_sensors (owned : Owned heap eb held) : heap.Readable eb.sensors := by
  intro key member
  obtain ⟨entry, stored, rfl⟩ := List.mem_map.mp member
  have same := (owned.keyed entry stored).1
  apply owned.live_of_mem
  apply mem_references stored
  rw [← same]
  simp [addresses]

theorem Owned.readable_scopes (owned : Owned heap eb held) {key : Nat} {sb : SensorCell α}
    (stored : (key, sb) ∈ eb.sensors.entries) : heap.Readable sb.scopes := by
  intro scope member
  apply owned.live_of_mem
  apply mem_references stored
  rw [KeyedScopes.addresses_eq (owned.keyed _ stored).2]
  exact List.mem_append_left _ member

theorem Owned.findOrAdd (owned : Owned heap eb held) {sensor : Nat} {middle : StringHeap}
    {sensors : Data.Table Nat (SensorCell α)} {entry : Nat × SensorCell α}
    (ensured : heap.Ensured eb.sensors sensor ⟨sensor, .empty⟩ middle sensors entry) :
    Owned middle { eb with sensors := sensors } held := by
  cases ensured with
  | found here => exact owned
  | added absent bytes next counted =>
      refine ⟨owned.keyed.append ⟨rfl, Data.Table.all_empty _⟩, fun s => ?_⟩
      have before := owned.counted s
      have more : [sensor].count s = if s = sensor then 1 else 0 := count_one s sensor
      rw [counted]
      simp only [references, Data.Table.values, Data.Table.append, List.map_append, List.flatMap_append,
        List.count_append, List.map_cons, List.map_nil, List.flatMap_cons, List.flatMap_nil, List.append_nil,
        addresses, Data.Table.empty, List.nil_append] at before ⊢
      omega

theorem Owned.modify (owned : Owned heap eb held) {key scope : Nat} {sb pushed : SensorCell α} {e : Event α}
    {after : StringHeap} (stored : eb.sensors.lookup key = some sb) (change : Pushed heap sb scope e after pushed) :
    Owned after { eb with sensors := eb.sensors.modify key fun _ => pushed } held := by
  have same := owned.keyed.lookup stored
  refine ⟨owned.keyed.modify fun _ _ => ⟨change.uuid.trans same.1, change.keyed⟩, fun s => ?_⟩
  have before := owned.counted s
  have counted := change.counted s
  have flat := Data.Table.count_flatMap_modify stored addresses pushed s
  simp only [references] at before ⊢
  omega

/-- A push takes a reference for every element it makes, and is a push into the base that
is meant. -/
theorem Owned.pushEvent (owned : Owned heap eb held) {sensor : Nat} {scope : ScopeRef} (sensorHeld : 0 < held sensor)
    (scopeHeld : 0 < held scope.uuid) (e : Event α) :
    ∃ after pushed, eb.pushEvent heap sensor scope e = .ok (after, pushed) ∧ Owned after pushed held ∧
      after.bytes = heap.bytes ∧ after.next = heap.next ∧
      (eb.view heap.bytes).pushEvent (heap.bytes sensor) (some (scope.view heap.bytes)) e.time e.value =
        .ok (0, pushed.view heap.bytes) := by
  obtain ⟨middle, sensors, entry, found, ensured⟩ :=
    StringHeap.findOrAdd_spec (⟨sensor, .empty⟩ : SensorCell α) owned.readable_sensors (owned.live sensorHeld)
  have here := ensured.named
  have stored := Data.Table.lookup_of_named here
  have owned' := owned.findOrAdd ensured
  obtain ⟨after, pushed, done, change⟩ := pushScope_spec e (owned'.keyed.lookup stored).2
    (owned'.readable_scopes (Data.Table.mem_of_lookup stored)) (owned'.live scopeHeld)
  refine ⟨after, { eb with sensors := sensors.modify entry.1 fun _ => pushed }, ?_, owned'.modify stored change,
    change.bytes.trans ensured.bytes_eq, change.next.trans ensured.next_eq, ?_⟩
  · rw [EventStore.pushEvent, found, Exec.ok_bind]
    simp only [stored, deref_some, Exec.ok_bind, done]
    rfl
  · have sensorBase : (eb.view heap.bytes).sensorBase (heap.bytes sensor) = entry.2.view heap.bytes :=
      (ensured.value (SensorCell.view heap.bytes)).symm
    have push : ((eb.view heap.bytes).sensorBase (heap.bytes sensor)).pushEvent (scope.view heap.bytes).uuid
        ⟨e.time, e.value⟩ = .ok (pushed.view heap.bytes) := by
      have shown := change.view
      rw [ensured.bytes_eq, ← sensorBase] at shown
      exact shown
    rw [EventBase.pushEvent_eq push]
    simp only [EventStore.view, Data.Table.rename_modify here, ensured.rename]
    rfl

/-- A pull is a pull from the base that is meant; its series has a reference that is the
caller's to give back. -/
theorem Owned.pullTimeserie (owned : Owned heap eb held) {sensor : Nat} {scope : ScopeRef}
    (sensorHeld : 0 < held sensor) (scopeHeld : 0 < held scope.uuid) (since now : NrmTime) :
    ∃ after ts, eb.pullTimeserie heap sensor scope since now = .ok (after, ts) ∧
      Owned after eb (fun s => held s + if s = sensor then 1 else 0) ∧ after.bytes = heap.bytes ∧
      after.next = heap.next ∧
      (eb.view heap.bytes).pullTimeserie (heap.bytes sensor) (.object (scope.view heap.bytes)) since now = .ok ts := by
  have live := owned.live sensorHeld
  obtain ⟨after, taken, bytes, next, -, counted⟩ := StringHeap.stringIncref_spec live
  have owned' : Owned after eb (fun s => held s + if s = sensor then 1 else 0) := by
    refine ⟨owned.keyed, fun s => ?_⟩
    rw [counted, owned.counted]
    omega
  have sensorHeld' : 0 < held sensor + if sensor = sensor then 1 else 0 := by omega
  have scopeHeld' : 0 < held scope.uuid + if scope.uuid = sensor then 1 else 0 := by omega
  obtain ⟨code, found⟩ := StringHeap.hashFind_snd owned'.readable_sensors (owned'.live sensorHeld')
  rw [EventStore.pullTimeserie, StringHeap.content_of_live live, Exec.ok_bind, taken, Exec.ok_bind, found,
    Exec.ok_bind, EventBase.pullTimeserie, bytes]
  simp only [Hash.find_snd, EventStore.view, Data.Table.lookup_rename]
  cases sensors : eb.sensors.named heap.bytes (heap.bytes sensor) with
  | none => exact ⟨after, _, rfl, owned', bytes, next, rfl⟩
  | some entry =>
      have stored := Data.Table.mem_of_lookup (Data.Table.lookup_of_named sensors)
      obtain ⟨code, inner⟩ := StringHeap.hashFind_snd (owned'.readable_scopes stored) (owned'.live scopeHeld')
      simp only [inner, Exec.ok_bind, Option.map_some, SensorCell.view, Data.Table.lookup_rename, ScopeRef.view, bytes]
      cases entry.2.scopes.named heap.bytes (heap.bytes scope.uuid) with
      | none => exact ⟨after, _, rfl, owned', bytes, next, rfl⟩
      | some scope => exact ⟨after, _, rfl, owned', bytes, next, rfl⟩

theorem destroy_eq (heap : StringHeap) (eb : EventStore α) : eb.destroy heap = heap.decrefAll eb.references := by
  unfold destroy references
  induction eb.sensors.values generalizing heap with
  | nil => rfl
  | cons sb rest ih =>
      rw [List.foldlM_cons, List.flatMap_cons, StringHeap.decrefAll_append, addresses, StringHeap.decrefAll_append]
      simp only [StringHeap.decrefAll_one]
      cases heap.decrefAll (sb.scopes.values.map ScopeCell.uuid) with
      | error fault => rfl
      | ok middle =>
          simp only [Exec.ok_bind]
          cases given : middle.stringDecref sb.uuid with
          | error fault => rfl
          | ok after => exact ih after

theorem Owned.destroy (owned : Owned heap eb held) :
    ∃ after, eb.destroy heap = .ok after ∧ ∀ s, after.refs.count s = held s := by
  have enough : ∀ s, eb.references.count s ≤ heap.refs.count s := by
    intro s
    rw [owned.counted]
    exact Nat.le_add_left _ _
  obtain ⟨after, done, counted⟩ := StringHeap.decrefAll_spec enough
  refine ⟨after, by rw [destroy_eq, done], fun s => ?_⟩
  have before := owned.counted s
  have left := counted s
  omega

end EventStore

end LibNrm
