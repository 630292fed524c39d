import LibNrm.Data.Arena
import LibNrm.Server.Handlers

namespace LibNrm.Heap

/-! The messages of `LibNrm.Messages` with every block they are made of: structs,
duplicated strings and arrays, each under the address it was allocated at.  An
array of no elements is a block as well.  `erase` forgets the addresses.

A definition named `xNew` or `xDestroy` is the function `nrm_msg_x_new` or
`nrm_msg_x_destroy` of `messages.c`.  A destroy function returns the addresses
it hands to `free`, in this order; `free(NULL)` is not among them.
-/

open Data (Alloc Block calloc destroyAll)

abbrev Str := Block (List UInt8)

/-- The array of a repeated field, NULL when there was no vector to copy. -/
abbrev Repeated (α : Type) := Option (Block (List (Block α)))

structure MsgActuate where
  uuid : Str
  value : ℚ

structure MsgSensor where
  uuid : Str

structure MsgSlice where
  uuid : Str

structure MsgScope where
  uuid : Str
  cpus : Block (List Int)
  numas : Block (List Int)
  gpus : Block (List Int)

inductive MsgActuatorData where
  | discrete (discrete : Block (Block (List ℚ)))
  | continuous (continuous : Block (ℚ × ℚ))

structure MsgActuator where
  uuid : Str
  clientid : Option Str
  value : ℚ
  type : Int
  data : Option MsgActuatorData

structure MsgTimeserie where
  sensorUuid : Str
  scope : Block MsgScope
  start : Int
  events : Block (List (Block MsgEvent))

inductive MsgAddData where
  | slice (slice : Block MsgSlice)
  | sensor (sensor : Block MsgSensor)
  | scope (scope : Block MsgScope)
  | actuator (actuator : Block MsgActuator)

structure MsgAdd where
  type : Int
  data : Option MsgAddData

inductive MsgListData where
  | slices (slices : Block (Repeated MsgSlice))
  | sensors (sensors : Block (Repeated MsgSensor))
  | scopes (scopes : Block (Repeated MsgScope))
  | actuators (actuators : Block (Repeated MsgActuator))

structure MsgList where
  type : Int
  data : Option MsgListData

structure MsgRemove where
  type : Int
  uuid : Str

inductive MsgData where
  | list (list : Block MsgList)
  | add (add : Block MsgAdd)
  | remove (remove : Block MsgRemove)
  | events (events : Block (Repeated MsgTimeserie))
  | actuate (actuate : Block MsgActuate)

structure Msg where
  type : Int
  data : Option MsgData

def Repeated.erase {α β : Type} (inner : α → β) : Repeated α → List β
  | none => []
  | some array => array.content.map fun item => inner item.content

def MsgActuate.erase (msg : MsgActuate) : LibNrm.MsgActuate := ⟨msg.uuid.content, msg.value⟩

def MsgSensor.erase (msg : MsgSensor) : LibNrm.MsgSensor := ⟨msg.uuid.content⟩

def MsgSlice.erase (msg : MsgSlice) : LibNrm.MsgSlice := ⟨msg.uuid.content⟩

def MsgScope.erase (msg : MsgScope) : LibNrm.MsgScope :=
  ⟨msg.uuid.content, msg.cpus.content, msg.numas.content, msg.gpus.content⟩

def MsgActuatorData.erase : MsgActuatorData → LibNrm.MsgActuatorData
  | .discrete payload => .discrete payload.content.content
  | .continuous payload => .continuous payload.content.1 payload.content.2

def MsgActuator.erase (msg : MsgActuator) : LibNrm.MsgActuator where
  uuid := msg.uuid.content
  clientid := msg.clientid.map Block.content
  value := msg.value
  type := msg.type
  data := msg.data.map MsgActuatorData.erase

def MsgTimeserie.erase (msg : MsgTimeserie) : LibNrm.MsgTimeserie where
  sensorUuid := msg.sensorUuid.content
  scope := some msg.scope.content.erase
  start := msg.start
  events := msg.events.content.map Block.content

def MsgAddData.erase : MsgAddData → LibNrm.MsgAddData
  | .slice payload => .slice payload.content.erase
  | .sensor payload => .sensor payload.content.erase
  | .scope payload => .scope payload.content.erase
  | .actuator payload => .actuator payload.content.erase

def MsgAdd.erase (msg : MsgAdd) : LibNrm.MsgAdd := ⟨msg.type, msg.data.map MsgAddData.erase⟩

def MsgListData.erase : MsgListData → LibNrm.MsgListData
  | .slices payload => .slices (payload.content.erase MsgSlice.erase)
  | .sensors payload => .sensors (payload.content.erase MsgSensor.erase)
  | .scopes payload => .scopes (payload.content.erase MsgScope.erase)
  | .actuators payload => .actuators (payload.content.erase MsgActuator.erase)

def MsgList.erase (msg : MsgList) : LibNrm.MsgList := ⟨msg.type, msg.data.map MsgListData.erase⟩

def MsgRemove.erase (msg : MsgRemove) : LibNrm.MsgRemove := ⟨msg.type, msg.uuid.content⟩

def MsgData.erase : MsgData → LibNrm.MsgData
  | .list payload => .list payload.content.erase
  | .add payload => .add payload.content.erase
  | .remove payload => .remove payload.content.erase
  | .events payload => .events (payload.content.erase MsgTimeserie.erase)
  | .actuate payload => .actuate payload.content.erase

def Msg.erase (msg : Msg) : LibNrm.Msg := ⟨msg.type, msg.data.map MsgData.erase⟩

def strdup (chars : List UInt8) : Alloc Fault Str := do
  let addr ← calloc
  pure ⟨addr, stringFromchar chars⟩

/-- `nrm_bitmap_to_array` -/
def bitmapToArray (map : Bitmap) : Alloc Fault (Block (List Int)) := do
  let addr ← calloc
  pure ⟨addr, map.toArray⟩

/-- The copy of a vector into a repeated field. -/
def repeatedNew {α β : Type} (itemNew : α → Alloc Fault (Block β)) :
    Option (List α) → Alloc Fault (Repeated β)
  | none => pure none
  | some vector => do
      let addr ← calloc
      let items ← vector.mapM itemNew
      pure (some ⟨addr, items⟩)

def actuateNew (uuid : NrmString) (value : ℚ) : Alloc Fault (Block MsgActuate) := do
  let addr ← calloc
  let uuid ← strdup uuid
  pure ⟨addr, uuid, value⟩

def sensorNew (uuid : NrmString) : Alloc Fault (Block MsgSensor) := do
  let addr ← calloc
  let uuid ← strdup uuid
  pure ⟨addr, ⟨uuid⟩⟩

def sliceNew (uuid : NrmString) : Alloc Fault (Block MsgSlice) := do
  let addr ← calloc
  let uuid ← strdup uuid
  pure ⟨addr, ⟨uuid⟩⟩

def actuatorDiscreteNew (actuator : Actuator) : Alloc Fault (Block (Block (List ℚ))) := do
  let addr ← calloc
  let array ← calloc
  let choices ← liftM actuator.choices
  pure ⟨addr, array, choices⟩

def actuatorContinuousNew (actuator : Actuator) : Alloc Fault (Block (ℚ × ℚ)) := do
  let addr ← calloc
  let limits ← liftM actuator.limits
  pure ⟨addr, limits⟩

/-- The `switch` of `nrm_msg_actuator_new`. -/
def actuatorDataNew (actuator : Actuator) : Alloc Fault (Option MsgActuatorData) :=
  if actuator.type = actuatorTypeDiscrete then do
    let discrete ← actuatorDiscreteNew actuator
    pure (some (.discrete discrete))
  else if actuator.type = actuatorTypeContinuous then do
    let continuous ← actuatorContinuousNew actuator
    pure (some (.continuous continuous))
  else pure none

/-- The client id of an actuator, NULL when there is none. -/
def clientidNew : Option NrmString → Alloc Fault (Option Str)
  | none => pure none
  | some clientid => do
      let clientid ← strdup clientid
      pure (some clientid)

def actuatorNew (actuator : Actuator) : Alloc Fault (Block MsgActuator) := do
  let addr ← calloc
  let uuid ← strdup actuator.uuid
  let clientid ← clientidNew actuator.clientid
  let data ← actuatorDataNew actuator
  pure ⟨addr, uuid, clientid, actuator.value, actuator.type, data⟩

def scopeNew (scope : Scope) : Alloc Fault (Block MsgScope) := do
  let addr ← calloc
  let uuid ← strdup scope.uuid
  let cpus ← bitmapToArray scope.cpu
  let numas ← bitmapToArray scope.numa
  let gpus ← bitmapToArray scope.gpu
  pure ⟨addr, uuid, cpus, numas, gpus⟩

def eventNew (event : Event ℚ) : Alloc Fault (Block MsgEvent) := do
  let addr ← calloc
  pure ⟨addr, event.time.tons, event.value⟩

def timeserieNew (timeserie : Timeserie ℚ) : Alloc Fault (Block MsgTimeserie) := do
  let addr ← calloc
  let sensorUuid ← strdup timeserie.sensorUuid
  let scope ← liftM timeserie.scope.deref
  let scope ← scopeNew scope
  let array ← calloc
  let events ← timeserie.events.mapM eventNew
  pure ⟨addr, sensorUuid, scope, timeserie.start.tons, array, events⟩

/-- A struct around a repeated field. -/
def listStructNew {α β : Type} (itemNew : α → Alloc Fault (Block β)) (vector : Option (List α)) :
    Alloc Fault (Block (Repeated β)) := do
  let addr ← calloc
  let items ← repeatedNew itemNew vector
  pure ⟨addr, items⟩

def timeserielistNew := listStructNew timeserieNew

def actuatorlistNew := listStructNew actuatorNew

def scopelistNew := listStructNew scopeNew

def sensorlistNew := listStructNew fun sensor : Sensor => sensorNew sensor.uuid

def slicelistNew := listStructNew fun slice : Slice => sliceNew slice.uuid

def removeNew (type : TargetType) (uuid : NrmString) : Alloc Fault (Block MsgRemove) := do
  let addr ← calloc
  let uuid ← strdup uuid
  pure ⟨addr, type.toInt, uuid⟩

/-- `nrm_msg_create` followed by `nrm_msg_fill`. -/
def fill (type : MsgType) : Alloc Fault (Block Msg) := do
  let addr ← calloc
  pure ⟨addr, type.toInt, none⟩

def setData (msg : Block Msg) (data : MsgData) : Block Msg :=
  ⟨msg.addr, msg.content.type, some data⟩

/-- `nrm_msg_set_events` -/
def setEvents (msg : Block Msg) (timeseries : Option (List (Timeserie ℚ))) :
    Alloc Fault (Block Msg) := do
  let events ← timeserielistNew timeseries
  pure (setData msg (.events events))

/-- `nrm_msg_set_actuate` -/
def setActuate (msg : Block Msg) (uuid : NrmString) (value : ℚ) : Alloc Fault (Block Msg) := do
  let actuate ← actuateNew uuid value
  pure (setData msg (.actuate actuate))

/-- `nrm_msg_add_new`, with the payload that is put into it next. -/
def addNew {α : Type} (type : TargetType) (wrap : Block α → MsgAddData)
    (payloadNew : Alloc Fault (Block α)) : Alloc Fault (Block MsgAdd) := do
  let addr ← calloc
  let payload ← payloadNew
  pure ⟨addr, type.toInt, some (wrap payload)⟩

/-- The payload of the four `nrm_msg_set_add_x`. -/
def addOf : Object → Alloc Fault (Block MsgAdd)
  | .slice slice => addNew .slice .slice (sliceNew slice.uuid)
  | .sensor sensor => addNew .sensor .sensor (sensorNew sensor.uuid)
  | .scope scope => addNew .scope .scope (scopeNew scope)
  | .actuator actuator => addNew .actuator .actuator (actuatorNew actuator)

/-- `nrm_msg_set_add_x` for the type of the object. -/
def setAdd (msg : Block Msg) (object : Object) : Alloc Fault (Block Msg) := do
  let add ← addOf object
  pure (setData msg (.add add))

/-- `nrm_msg_list_new`, with the payload that is put into it next. -/
def listNew {α : Type} (type : TargetType) (wrap : Block α → MsgListData)
    (payloadNew : Alloc Fault (Block α)) : Alloc Fault (Block MsgList) := do
  let addr ← calloc
  let payload ← payloadNew
  pure ⟨addr, type.toInt, some (wrap payload)⟩

/-- A vector of objects of one type; the pointer is NULL in a request. -/
inductive Vector where
  | slices (vector : Option (List Slice))
  | sensors (vector : Option (List Sensor))
  | scopes (vector : Option (List Scope))
  | actuators (vector : Option (List Actuator))

/-- The payload of the four `nrm_msg_set_list_xs`. -/
def listOf : Vector → Alloc Fault (Block MsgList)
  | .slices vector => listNew .slice .slices (slicelistNew vector)
  | .sensors vector => listNew .sensor .sensors (sensorlistNew vector)
  | .scopes vector => listNew .scope .scopes (scopelistNew vector)
  | .actuators vector => listNew .actuator .actuators (actuatorlistNew vector)

/-- `nrm_msg_set_list_xs` for the type of the vector. -/
def setList (msg : Block Msg) (vector : Vector) : Alloc Fault (Block Msg) := do
  let list ← listOf vector
  pure (setData msg (.list list))

/-- `nrm_msg_set_remove` -/
def setRemove (msg : Block Msg) (type : TargetType) (uuid : NrmString) : Alloc Fault (Block Msg) := do
  let remove ← removeNew type uuid
  pure (setData msg (.remove remove))

def actuateDestroy (msg : Block MsgActuate) : List Nat := [msg.content.uuid.addr, msg.addr]

def sensorDestroy (msg : Block MsgSensor) : List Nat := [msg.content.uuid.addr, msg.addr]

def sliceDestroy (msg : Block MsgSlice) : List Nat := [msg.content.uuid.addr, msg.addr]

def removeDestroy (msg : Block MsgRemove) : List Nat := [msg.content.uuid.addr, msg.addr]

def scopeDestroy (msg : Block MsgScope) : List Nat :=
  [msg.content.uuid.addr, msg.content.cpus.addr, msg.content.numas.addr, msg.content.gpus.addr,
    msg.addr]

/-- The `switch` of `nrm_msg_actuator_destroy`, which goes by the type of the actuator. -/
def actuatorDataDestroy (type : Int) (data : Option MsgActuatorData) : Exec (List Nat) :=
  if type = actuatorTypeDiscrete then
    match data with
    | none => .error .nullDereference
    | some (.discrete discrete) => .ok [discrete.content.addr, discrete.addr]
    | some (.continuous _) => .error .wrongMember
  else if type = actuatorTypeContinuous then
    match data with
    | none => .ok []
    | some (.continuous continuous) => .ok [continuous.addr]
    | some (.discrete _) => .error .wrongMember
  else .ok []

def actuatorDestroy (msg : Block MsgActuator) : Exec (List Nat) := do
  let data ← actuatorDataDestroy msg.content.type msg.content.data
  pure ([msg.content.uuid.addr] ++ (msg.content.clientid.map Block.addr).toList ++ data ++ [msg.addr])

def eventDestroy (msg : Block MsgEvent) : List Nat := [msg.addr]

def timeserieDestroy (msg : Block MsgTimeserie) : List Nat :=
  [msg.content.sensorUuid.addr] ++ scopeDestroy msg.content.scope ++
    msg.content.events.content.flatMap eventDestroy ++ [msg.content.events.addr, msg.addr]

/-- `nrm_msg_timeserielist_destroy`: the array goes, the series in it stay. -/
def timeserielistDestroy (msg : Block (Repeated MsgTimeserie)) : List Nat :=
  (msg.content.map Block.addr).toList ++ [msg.addr]

/-- The four `nrm_msg_xlist_destroy`: the elements, the array, the struct. -/
def listStructDestroy {β : Type} (itemDestroy : Block β → Exec (List Nat))
    (msg : Block (Repeated β)) : Exec (List Nat) :=
  match msg.content with
  | none => .ok [msg.addr]
  | some array => do
      let items ← destroyAll itemDestroy array.content
      pure (items ++ [array.addr] ++ [msg.addr])

/-- A member that is read by the type next to it: NULL if no member is set, and a fault if
another one is. -/
def addDataDestroy (msg : MsgAdd) : Exec (List Nat) :=
  match TargetType.ofInt? msg.type, msg.data with
  | none, _ => .ok []
  | some _, none => .ok []
  | some .slice, some (.slice slice) => .ok (sliceDestroy slice)
  | some .sensor, some (.sensor sensor) => .ok (sensorDestroy sensor)
  | some .scope, some (.scope scope) => .ok (scopeDestroy scope)
  | some .actuator, some (.actuator actuator) => actuatorDestroy actuator
  | some _, some _ => .error .wrongMember

def addDestroy (msg : Block MsgAdd) : Exec (List Nat) := do
  let data ← addDataDestroy msg.content
  pure (data ++ [msg.addr])

def listDataDestroy (msg : MsgList) : Exec (List Nat) :=
  match TargetType.ofInt? msg.type, msg.data with
  | none, _ => .ok []
  | some _, none => .ok []
  | some .slice, some (.slices slices) => listStructDestroy (fun item => .ok (sliceDestroy item)) slices
  | some .sensor, some (.sensors sensors) =>
      listStructDestroy (fun item => .ok (sensorDestroy item)) sensors
  | some .scope, some (.scopes scopes) => listStructDestroy (fun item => .ok (scopeDestroy item)) scopes
  | some .actuator, some (.actuators actuators) => listStructDestroy actuatorDestroy actuators
  | some _, some _ => .error .wrongMember

def listDestroy (msg : Block MsgList) : Exec (List Nat) := do
  let data ← listDataDestroy msg.content
  pure (data ++ [msg.addr])

/-- The `switch` of `nrm_msg_destroy_created`. -/
def dataDestroy (msg : Msg) : Exec (List Nat) :=
  match MsgType.ofInt? msg.type, msg.data with
  | none, _ => .ok []
  | some .ack, _ => .ok []
  | some .exit, _ => .ok []
  | some .tick, _ => .ok []
  | some _, none => .ok []
  | some .actuate, some (.actuate actuate) => .ok (actuateDestroy actuate)
  | some .add, some (.add add) => addDestroy add
  | some .list, some (.list list) => listDestroy list
  | some .events, some (.events events) => .ok (timeserielistDestroy events)
  | some .remove, some (.remove remove) => .ok (removeDestroy remove)
  | some _, some _ => .error .wrongMember

/-- `nrm_msg_destroy_created` -/
def destroyCreated (msg : Block Msg) : Exec (List Nat) := do
  let data ← dataDestroy msg.content
  pure (data ++ [msg.addr])

end LibNrm.Heap
