import LibNrm.Actuator

namespace LibNrm

/-! A method `State.addX`, `State.listXs` or `State.removeX` is the function
`nrm_state_add_x`, `nrm_state_list_xs` or `nrm_state_remove_x` of `state.c`.
The return code of `nrm_hash_add` is dropped there, so adding always reports
success.
-/

structure State where
  actuators : Hash Actuator
  scopes : Hash Scope
  sensors : Hash Sensor
  slices : Hash Slice
deriving DecidableEq, Repr

namespace State

def create : State := ⟨.empty, .empty, .empty, .empty⟩

def addActuator (state : State) (actuator : Option Actuator) : Exec (Int × State) := do
  -- `nrm_actuator_uuid` asserts on its argument
  assert actuator.isSome
  let actuator ← deref actuator
  pure (0, { state with actuators := (Hash.add state.actuators actuator.uuid actuator).2 })

def addScope (state : State) (scope : Option Scope) : Exec (Int × State) := do
  let scope ← deref scope
  pure (0, { state with scopes := (Hash.add state.scopes scope.uuid scope).2 })

def addSensor (state : State) (sensor : Option Sensor) : Exec (Int × State) := do
  let sensor ← deref sensor
  pure (0, { state with sensors := (Hash.add state.sensors sensor.uuid sensor).2 })

def addSlice (state : State) (slice : Option Slice) : Exec (Int × State) := do
  let slice ← deref slice
  pure (0, { state with slices := (Hash.add state.slices slice.uuid slice).2 })

def listActuators (state : State) : List Actuator := state.actuators.values

def listScopes (state : State) : List Scope := state.scopes.values

def listSensors (state : State) : List Sensor := state.sensors.values

def listSlices (state : State) : List Slice := state.slices.values

/-- The four removals share one body: look the key up, destroy what came back.
The result carries the object the destroy function released. -/
def removeWith (destroy : Ptr α → Exec (Option α)) (frame : List UInt8) (table : Hash α)
    (uuid : List UInt8) : Exec (Hash α × Option α) := do
  let id := stringFromchar uuid
  let (_, table, ptr) ← table.remove frame id .null
  let released ← destroy ptr
  pure (table, released)

def removeActuator (frame : List UInt8) (state : State) (uuid : List UInt8) :
    Exec (State × Option Actuator) := do
  let (table, released) ← removeWith Actuator.destroy frame state.actuators uuid
  pure ({ state with actuators := table }, released)

def removeScope (frame : List UInt8) (state : State) (uuid : List UInt8) :
    Exec (State × Option Scope) := do
  let (table, released) ← removeWith scopeDestroy frame state.scopes uuid
  pure ({ state with scopes := table }, released)

def removeSensor (frame : List UInt8) (state : State) (uuid : List UInt8) :
    Exec (State × Option Sensor) := do
  let (table, released) ← removeWith sensorDestroy frame state.sensors uuid
  pure ({ state with sensors := table }, released)

def removeSlice (frame : List UInt8) (state : State) (uuid : List UInt8) :
    Exec (State × Option Slice) := do
  let (table, released) ← removeWith sliceDestroy frame state.slices uuid
  pure ({ state with slices := table }, released)

/-- Keys are pairwise distinct and each is the uuid of the object under it. -/
structure Keyed (uuid : α → NrmString) (table : Hash α) : Prop where
  distinct : table.Distinct
  named : table.All fun key object => key = uuid object

structure WellKeyed (state : State) : Prop where
  actuators : Keyed Actuator.uuid state.actuators
  scopes : Keyed Scope.uuid state.scopes
  sensors : Keyed Sensor.uuid state.sensors
  slices : Keyed Slice.uuid state.slices

end State

end LibNrm
