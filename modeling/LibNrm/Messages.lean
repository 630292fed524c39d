import LibNrm.Actuator
import LibNrm.Timeserie

namespace LibNrm

/-! The structures follow `msg.proto` as protobuf-c represents them: enumerations
are open, so a type field is an integer; a `oneof` is a case together with a
pointer, absent or of one kind; a string field is never NULL after unpacking,
except that the encoder of an actuator writes NULL for a missing client id.

A definition named `xNew`, `setX` or `createFrommsg` is the function
`nrm_msg_x_new`, `nrm_msg_set_x` or `nrm_x_create_frommsg` of `messages.c`.
-/

inductive MsgType where
  | ack | list | add | remove | events | actuate | exit | tick
deriving DecidableEq, Repr

def MsgType.toInt : MsgType → Int
  | .ack => 0
  | .list => 1
  | .add => 2
  | .remove => 3
  | .events => 4
  | .actuate => 5
  | .exit => 6
  | .tick => 7

def MsgType.ofInt? : Int → Option MsgType
  | 0 => some .ack
  | 1 => some .list
  | 2 => some .add
  | 3 => some .remove
  | 4 => some .events
  | 5 => some .actuate
  | 6 => some .exit
  | 7 => some .tick
  | _ => none

inductive TargetType where
  | slice | sensor | scope | actuator
deriving DecidableEq, Repr

def TargetType.toInt : TargetType → Int
  | .slice => 0
  | .sensor => 1
  | .scope => 2
  | .actuator => 3

def TargetType.ofInt? : Int → Option TargetType
  | 0 => some .slice
  | 1 => some .sensor
  | 2 => some .scope
  | 3 => some .actuator
  | _ => none

@[simp] theorem MsgType.ofInt?_toInt (type : MsgType) : MsgType.ofInt? type.toInt = some type := by
  cases type <;> rfl

@[simp] theorem TargetType.ofInt?_toInt (type : TargetType) :
    TargetType.ofInt? type.toInt = some type := by
  cases type <;> rfl

structure MsgSlice where
  uuid : List UInt8
deriving DecidableEq, Repr

structure MsgSensor where
  uuid : List UInt8
deriving DecidableEq, Repr

structure MsgScope where
  uuid : List UInt8
  cpus : List Int
  numas : List Int
  gpus : List Int
deriving DecidableEq, Repr

inductive MsgActuatorData where
  | discrete (choices : List ℚ)
  | continuous (lmin lmax : ℚ)
deriving DecidableEq, Repr

structure MsgActuator where
  uuid : List UInt8
  clientid : Option (List UInt8)
  value : ℚ
  type : Int
  data : Option MsgActuatorData
deriving DecidableEq, Repr

inductive MsgAddData where
  | slice (slice : MsgSlice)
  | sensor (sensor : MsgSensor)
  | scope (scope : MsgScope)
  | actuator (actuator : MsgActuator)
deriving DecidableEq, Repr

structure MsgAdd where
  type : Int
  data : Option MsgAddData
deriving DecidableEq, Repr

inductive MsgListData where
  | slices (slices : List MsgSlice)
  | sensors (sensors : List MsgSensor)
  | scopes (scopes : List MsgScope)
  | actuators (actuators : List MsgActuator)
deriving DecidableEq, Repr

structure MsgList where
  type : Int
  data : Option MsgListData
deriving DecidableEq, Repr

structure MsgRemove where
  type : Int
  uuid : List UInt8
deriving DecidableEq, Repr

structure MsgActuate where
  uuid : List UInt8
  value : ℚ
deriving DecidableEq, Repr

structure MsgEvent where
  time : Int
  value : ℚ
deriving DecidableEq, Repr

structure MsgTimeserie where
  sensorUuid : List UInt8
  scope : Option MsgScope
  start : Int
  events : List MsgEvent
deriving DecidableEq, Repr

inductive MsgData where
  | list (list : MsgList)
  | add (add : MsgAdd)
  | remove (remove : MsgRemove)
  | events (series : List MsgTimeserie)
  | actuate (actuate : MsgActuate)
deriving DecidableEq, Repr

structure Msg where
  type : Int
  data : Option MsgData
deriving DecidableEq, Repr

namespace Msg

/-- The pointer to a member of the `oneof` is NULL when no case is set; reading it when another
one is set is a fault. -/
def list (msg : Msg) : Exec (Option MsgList) :=
  match msg.data with
  | none => .ok none
  | some (.list list) => .ok (some list)
  | some _ => .error .wrongMember

def add (msg : Msg) : Exec (Option MsgAdd) :=
  match msg.data with
  | none => .ok none
  | some (.add add) => .ok (some add)
  | some _ => .error .wrongMember

def remove (msg : Msg) : Exec (Option MsgRemove) :=
  match msg.data with
  | none => .ok none
  | some (.remove remove) => .ok (some remove)
  | some _ => .error .wrongMember

def events (msg : Msg) : Exec (Option (List MsgTimeserie)) :=
  match msg.data with
  | none => .ok none
  | some (.events series) => .ok (some series)
  | some _ => .error .wrongMember

def actuate (msg : Msg) : Exec (Option MsgActuate) :=
  match msg.data with
  | none => .ok none
  | some (.actuate actuate) => .ok (some actuate)
  | some _ => .error .wrongMember

end Msg

namespace MsgAdd

def slice (msg : MsgAdd) : Exec (Option MsgSlice) :=
  match msg.data with
  | none => .ok none
  | some (.slice slice) => .ok (some slice)
  | some _ => .error .wrongMember

def sensor (msg : MsgAdd) : Exec (Option MsgSensor) :=
  match msg.data with
  | none => .ok none
  | some (.sensor sensor) => .ok (some sensor)
  | some _ => .error .wrongMember

def scope (msg : MsgAdd) : Exec (Option MsgScope) :=
  match msg.data with
  | none => .ok none
  | some (.scope scope) => .ok (some scope)
  | some _ => .error .wrongMember

def actuator (msg : MsgAdd) : Exec (Option MsgActuator) :=
  match msg.data with
  | none => .ok none
  | some (.actuator actuator) => .ok (some actuator)
  | some _ => .error .wrongMember

end MsgAdd

namespace MsgList

def slices (msg : MsgList) : Exec (Option (List MsgSlice)) :=
  match msg.data with
  | none => .ok none
  | some (.slices slices) => .ok (some slices)
  | some _ => .error .wrongMember

def sensors (msg : MsgList) : Exec (Option (List MsgSensor)) :=
  match msg.data with
  | none => .ok none
  | some (.sensors sensors) => .ok (some sensors)
  | some _ => .error .wrongMember

def scopes (msg : MsgList) : Exec (Option (List MsgScope)) :=
  match msg.data with
  | none => .ok none
  | some (.scopes scopes) => .ok (some scopes)
  | some _ => .error .wrongMember

def actuators (msg : MsgList) : Exec (Option (List MsgActuator)) :=
  match msg.data with
  | none => .ok none
  | some (.actuators actuators) => .ok (some actuators)
  | some _ => .error .wrongMember

end MsgList

namespace MsgActuator

def discrete (msg : MsgActuator) : Exec (Option (List ℚ)) :=
  match msg.data with
  | none => .ok none
  | some (.discrete choices) => .ok (some choices)
  | some _ => .error .wrongMember

def continuous (msg : MsgActuator) : Exec (Option (ℚ × ℚ)) :=
  match msg.data with
  | none => .ok none
  | some (.continuous lmin lmax) => .ok (some (lmin, lmax))
  | some _ => .error .wrongMember

end MsgActuator

def msgActuatorNew (actuator : Actuator) : Exec MsgActuator := do
  -- `data_case` is set together with the sub-message, and an unknown type sets neither
  let data ←
    if actuator.type = actuatorTypeDiscrete then do
      let choices ← actuator.choices
      pure (some (MsgActuatorData.discrete choices))
    else if actuator.type = actuatorTypeContinuous then do
      let (lmin, lmax) ← actuator.limits
      pure (some (MsgActuatorData.continuous lmin lmax))
    else pure none
  pure
    { uuid := stringFromchar actuator.uuid
      clientid := actuator.clientid.map stringFromchar
      value := actuator.value
      type := actuator.type
      data := data }

def msgScopeNew (scope : Scope) : MsgScope where
  uuid := stringFromchar scope.uuid
  cpus := scope.cpu.toArray
  numas := scope.numa.toArray
  gpus := scope.gpu.toArray

def msgSensorNew (uuid : NrmString) : MsgSensor := ⟨stringFromchar uuid⟩

def msgSliceNew (uuid : NrmString) : MsgSlice := ⟨stringFromchar uuid⟩

def msgEventNew (event : Event ℚ) : MsgEvent := ⟨event.time.tons, event.value⟩

def msgTimeserieNew (timeserie : Timeserie ℚ) : Exec MsgTimeserie := do
  let scope ← timeserie.scope.deref
  pure
    { sensorUuid := stringFromchar timeserie.sensorUuid
      scope := some (msgScopeNew scope)
      start := timeserie.start.tons
      events := timeserie.events.map msgEventNew }

namespace Msg

/-- `nrm_msg_create` followed by `nrm_msg_fill`. -/
def fill (type : MsgType) : Msg := ⟨type.toInt, none⟩

def setEvents (msg : Msg) (timeseries : List (Timeserie ℚ)) : Exec Msg := do
  let series ← timeseries.mapM msgTimeserieNew
  pure { msg with data := some (.events series) }

def setActuate (msg : Msg) (uuid : NrmString) (value : ℚ) : Msg :=
  { msg with data := some (.actuate ⟨stringFromchar uuid, value⟩) }

def setAddActuator (msg : Msg) (actuator : Actuator) : Exec Msg := do
  let payload ← msgActuatorNew actuator
  pure { msg with data := some (.add ⟨TargetType.actuator.toInt, some (.actuator payload)⟩) }

def setAddScope (msg : Msg) (scope : Scope) : Msg :=
  { msg with data := some (.add ⟨TargetType.scope.toInt, some (.scope (msgScopeNew scope))⟩) }

def setAddSensor (msg : Msg) (sensor : Sensor) : Msg :=
  { msg with
    data := some (.add ⟨TargetType.sensor.toInt, some (.sensor (msgSensorNew sensor.uuid))⟩) }

def setAddSlice (msg : Msg) (slice : Slice) : Msg :=
  { msg with
    data := some (.add ⟨TargetType.slice.toInt, some (.slice (msgSliceNew slice.uuid))⟩) }

def setListActuators (msg : Msg) (actuators : List Actuator) : Exec Msg := do
  let payload ← actuators.mapM msgActuatorNew
  pure { msg with data := some (.list ⟨TargetType.actuator.toInt, some (.actuators payload)⟩) }

def setListScopes (msg : Msg) (scopes : List Scope) : Msg :=
  { msg with
    data := some (.list ⟨TargetType.scope.toInt, some (.scopes (scopes.map msgScopeNew))⟩) }

def setListSensors (msg : Msg) (sensors : List Sensor) : Msg :=
  { msg with
    data := some (.list ⟨TargetType.sensor.toInt,
      some (.sensors (sensors.map fun sensor => msgSensorNew sensor.uuid))⟩) }

def setListSlices (msg : Msg) (slices : List Slice) : Msg :=
  { msg with
    data := some (.list ⟨TargetType.slice.toInt,
      some (.slices (slices.map fun slice => msgSliceNew slice.uuid))⟩) }

def setRemove (msg : Msg) (type : TargetType) (uuid : NrmString) : Msg :=
  { msg with data := some (.remove ⟨type.toInt, stringFromchar uuid⟩) }

end Msg

namespace Actuator

def continuousCreateFrommsg (msg : MsgActuator) : Exec Actuator := do
  let ret := continuousCreate msg.uuid
  let ret := match msg.clientid with
    | some clientid => ret.setClientid (stringFromchar clientid)
    | none => ret
  let ret := ret.setValue msg.value
  let (lmin, lmax) ← deref (← msg.continuous)
  pure (ret.continuousSetLimits lmin lmax).2

def discreteCreateFrommsg (msg : MsgActuator) : Exec Actuator := do
  let ret := discreteCreate msg.uuid
  let ret := match msg.clientid with
    | some clientid => ret.setClientid (stringFromchar clientid)
    | none => ret
  let ret := ret.setValue msg.value
  let choices ← deref (← msg.discrete)
  -- an empty list is refused by `set_choices`, whose return code is dropped
  let (_, ret) ← ret.discreteSetChoices choices
  pure ret

def createFrommsg : Option MsgActuator → Exec (Option Actuator)
  | none => .ok none
  | some msg =>
      if msg.type = actuatorTypeDiscrete then do
        let ret ← discreteCreateFrommsg msg
        pure (some ret)
      else if msg.type = actuatorTypeContinuous then do
        let ret ← continuousCreateFrommsg msg
        pure (some ret)
      else .ok none

end Actuator

def MsgScope.decoded (msg : MsgScope) : Scope :=
  { scopeCreate msg.uuid with
    cpu := .fromArray msg.cpus
    numa := .fromArray msg.numas
    gpu := .fromArray msg.gpus }

def scopeCreateFrommsg (msg : Option MsgScope) : Option Scope := msg.map MsgScope.decoded

def sensorCreateFrommsg (msg : Option MsgSensor) : Option Sensor :=
  msg.map fun msg => sensorCreate msg.uuid

def sliceCreateFrommsg (msg : Option MsgSlice) : Option Slice :=
  msg.map fun msg => sliceCreate msg.uuid

/-- `nrm_msg_is_reply`: everything but a command is a reply. -/
def Msg.isReply (msg : Msg) : Bool :=
  match MsgType.ofInt? msg.type with
  | some .actuate => false
  | some .tick => false
  | _ => true

/-- The type of the actuator is known and its payload is of that type. -/
inductive MsgActuator.WellFormed (msg : MsgActuator) : Prop where
  | discrete (choices : List ℚ) (type : msg.type = actuatorTypeDiscrete)
      (data : msg.data = some (.discrete choices))
  | continuous (lmin lmax : ℚ) (type : msg.type = actuatorTypeContinuous)
      (data : msg.data = some (.continuous lmin lmax))

/-- The target type of a request to add is known and its payload is of that type. -/
inductive MsgAdd.WellFormed (msg : MsgAdd) : Prop where
  | slice (slice : MsgSlice) (type : msg.type = TargetType.slice.toInt)
      (data : msg.data = some (.slice slice))
  | sensor (sensor : MsgSensor) (type : msg.type = TargetType.sensor.toInt)
      (data : msg.data = some (.sensor sensor))
  | scope (scope : MsgScope) (type : msg.type = TargetType.scope.toInt)
      (data : msg.data = some (.scope scope))
  | actuator (actuator : MsgActuator) (type : msg.type = TargetType.actuator.toInt)
      (data : msg.data = some (.actuator actuator)) (inner : actuator.WellFormed)

inductive MsgList.WellFormed (msg : MsgList) : Prop where
  | slice (slices : List MsgSlice) (type : msg.type = TargetType.slice.toInt)
      (data : msg.data = some (.slices slices))
  | sensor (sensors : List MsgSensor) (type : msg.type = TargetType.sensor.toInt)
      (data : msg.data = some (.sensors sensors))
  | scope (scopes : List MsgScope) (type : msg.type = TargetType.scope.toInt)
      (data : msg.data = some (.scopes scopes))
  | actuator (actuators : List MsgActuator) (type : msg.type = TargetType.actuator.toInt)
      (data : msg.data = some (.actuators actuators)) (inner : ∀ a ∈ actuators, a.WellFormed)

/-- A request as `client.c` builds them: the payload is the one the type announces, down to the
last pointer. -/
inductive Msg.WellFormed (msg : Msg) : Prop where
  | actuate (actuate : MsgActuate) (type : msg.type = MsgType.actuate.toInt)
      (data : msg.data = some (.actuate actuate))
  | list (list : MsgList) (type : msg.type = MsgType.list.toInt)
      (data : msg.data = some (.list list)) (inner : list.WellFormed)
  | add (add : MsgAdd) (type : msg.type = MsgType.add.toInt)
      (data : msg.data = some (.add add)) (inner : add.WellFormed)
  | events (series : List MsgTimeserie) (type : msg.type = MsgType.events.toInt)
      (data : msg.data = some (.events series)) (inner : ∀ ts ∈ series, ts.scope.isSome)
  | remove (remove : MsgRemove) (target : TargetType) (type : msg.type = MsgType.remove.toInt)
      (data : msg.data = some (.remove remove)) (known : remove.type = target.toInt)
  | tick (type : msg.type = MsgType.tick.toInt)
  | exit (type : msg.type = MsgType.exit.toInt)

/-- The object a well-formed actuator message decodes to. -/
def MsgActuator.decoded (msg : MsgActuator) : Actuator :=
  match msg.data with
  | some (.continuous lmin lmax) =>
      { type := actuatorTypeContinuous
        uuid := stringFromchar msg.uuid
        clientid := msg.clientid.map stringFromchar
        value := msg.value
        u := .limits lmin lmax
        ops := .continuous }
  | some (.discrete choices) =>
      { type := actuatorTypeDiscrete
        uuid := stringFromchar msg.uuid
        clientid := msg.clientid.map stringFromchar
        value := msg.value
        u := .choices (choices.insertionSort (· ≤ ·))
        ops := .discrete }
  | none => .discreteCreate msg.uuid

theorem MsgActuator.WellFormed.createFrommsg {msg : MsgActuator} (wellFormed : msg.WellFormed) :
    Actuator.createFrommsg (some msg) = .ok (some msg.decoded) := by
  obtain ⟨uuid, clientid, value, type, data⟩ := msg
  cases wellFormed with
  | discrete choices isType isData =>
      simp only at isType isData
      subst isType isData
      simp only [Actuator.createFrommsg, ↓reduceIte, Actuator.discreteCreateFrommsg,
        MsgActuator.discrete, Exec.ok_bind, deref_some, Actuator.discreteSetChoices]
      cases choices with
      | nil => cases clientid <;> rfl
      | cons choice rest =>
          cases clientid <;>
            simp [Actuator.choices, Actuator.setValue, Actuator.setClientid,
              Actuator.discreteCreate, decoded]
  | continuous lmin lmax isType isData =>
      simp only at isType isData
      subst isType isData
      cases clientid <;> rfl

theorem MsgActuator.WellFormed.decoded_consistent {msg : MsgActuator}
    (wellFormed : msg.WellFormed) : msg.decoded.Consistent := by
  cases wellFormed with
  | discrete choices type data =>
      exact .discrete (choices.insertionSort (· ≤ ·)) (by simp [decoded, data])
        (by simp [decoded, data]) (by simp [decoded, data])
  | continuous lmin lmax type data =>
      exact .continuous lmin lmax (by simp [decoded, data]) (by simp [decoded, data])
        (by simp [decoded, data])

theorem MsgActuator.decoded_uuid (msg : MsgActuator) : msg.decoded.uuid = stringFromchar msg.uuid := by
  unfold decoded
  split <;> rfl

theorem Actuator.wellFormed_of_createFrommsg {msg : MsgActuator} {actuator : Actuator}
    (created : createFrommsg (some msg) = .ok (some actuator)) : msg.WellFormed := by
  simp only [createFrommsg] at created
  split at created
  · rename_i discrete
    obtain ⟨ret, built, _⟩ := Exec.bind_eq_ok.mp created
    obtain ⟨pointer, read, rest⟩ := Exec.bind_eq_ok.mp built
    simp only [MsgActuator.discrete] at read
    split at read
    · cases read
      cases rest
    · rename_i choices data
      exact .discrete choices discrete data
    · cases read
  · split at created
    · rename_i continuous
      obtain ⟨ret, built, _⟩ := Exec.bind_eq_ok.mp created
      obtain ⟨pointer, read, rest⟩ := Exec.bind_eq_ok.mp built
      simp only [MsgActuator.continuous] at read
      split at read
      · cases read
        cases rest
      · rename_i lmin lmax data
        exact .continuous lmin lmax continuous data
      · cases read
    · cases created

/-- What `nrm_msg_actuator_new` made of the union. -/
inductive Actuator.Copied (actuator : Actuator) : Option MsgActuatorData → Prop where
  | discrete (choices : List ℚ) (type : actuator.type = actuatorTypeDiscrete)
      (read : actuator.choices = .ok choices) : Copied actuator (some (.discrete choices))
  | continuous (lmin lmax : ℚ) (other : actuator.type ≠ actuatorTypeDiscrete)
      (type : actuator.type = actuatorTypeContinuous)
      (read : actuator.limits = .ok (lmin, lmax)) : Copied actuator (some (.continuous lmin lmax))
  | unknown (other : actuator.type ≠ actuatorTypeDiscrete)
      (unknown : actuator.type ≠ actuatorTypeContinuous) : Copied actuator none

/-- The encoder copies the union by the type, and every other field as it is. -/
theorem msgActuatorNew_eq_ok {actuator : Actuator} {payload : MsgActuator}
    (encoded : msgActuatorNew actuator = .ok payload) :
    payload = ⟨stringFromchar actuator.uuid, actuator.clientid.map stringFromchar, actuator.value,
      actuator.type, payload.data⟩ ∧ actuator.Copied payload.data := by
  unfold msgActuatorNew at encoded
  split at encoded
  · rename_i type
    obtain ⟨choices, read, done⟩ := Exec.bind_eq_ok.mp encoded
    cases done
    exact ⟨rfl, .discrete choices type read⟩
  · rename_i other
    split at encoded
    · rename_i type
      obtain ⟨⟨lmin, lmax⟩, read, done⟩ := Exec.bind_eq_ok.mp encoded
      cases done
      exact ⟨rfl, .continuous lmin lmax other type read⟩
    · rename_i unknown
      cases encoded
      exact ⟨rfl, .unknown other unknown⟩

theorem Actuator.Consistent.msgActuatorNew {actuator : Actuator} (consistent : actuator.Consistent) :
    ∃ payload, LibNrm.msgActuatorNew actuator = .ok payload ∧ payload.WellFormed := by
  cases consistent with
  | discrete choices type ops u =>
      exact ⟨_, by simp [LibNrm.msgActuatorNew, type, Actuator.choices, u]; rfl,
        .discrete choices rfl rfl⟩
  | continuous min max type ops u =>
      exact ⟨_, by
        simp [LibNrm.msgActuatorNew, type, Actuator.limits, u, actuatorTypeContinuous,
          actuatorTypeDiscrete]
        rfl, .continuous min max rfl rfl⟩

end LibNrm
