import LibNrm.Server.Handlers

namespace LibNrm

/-! Every call of `client.c` builds a message and hands it to its role inside one
critical section.  A blocking call then takes a message from its role inside a
second one, checks its type and reads the answer out of it.
`Call.request` is the part before the first section and `Call.finish` the part
after the second.
-/

namespace Actuator

/-- `nrm_actuator_update_frommsg` -/
def updateFrommsg (actuator : Actuator) : Option MsgActuator → Exec Actuator
  | none => .ok actuator
  | some msg => do
      let actuator := { actuator with uuid := stringFromchar msg.uuid }
      let actuator := match msg.clientid with
        | some clientid => actuator.setClientid (stringFromchar clientid)
        | none => actuator
      let actuator := actuator.setValue msg.value
      if msg.type = actuatorTypeDiscrete then do
        let choices ← deref (← msg.discrete)
        let (_, actuator) ← actuator.discreteSetChoices choices
        pure actuator
      else if msg.type = actuatorTypeContinuous then do
        let (lmin, lmax) ← deref (← msg.continuous)
        pure (actuator.continuousSetLimits lmin lmax).2
      else pure actuator

/-- Two actuators the same but for names, owners and values. -/
structure Alike (left right : Actuator) : Prop where
  type : left.type = right.type
  ops : left.ops = right.ops
  u : left.u = right.u

theorem Alike.trans {left middle right : Actuator} (first : Alike left middle)
    (second : Alike middle right) : Alike left right :=
  ⟨first.type.trans second.type, first.ops.trans second.ops, first.u.trans second.u⟩

theorem updateFrommsg_eq (actuator : Actuator) (msg : MsgActuator) :
    ∃ base, Alike base actuator ∧
      (∀ choices, msg.type = actuatorTypeDiscrete → msg.data = some (.discrete choices) →
        actuator.updateFrommsg (some msg) = do
          let result ← base.discreteSetChoices choices
          pure result.2) ∧
      (∀ lmin lmax, msg.type = actuatorTypeContinuous → msg.data = some (.continuous lmin lmax) →
        actuator.updateFrommsg (some msg) = .ok (base.continuousSetLimits lmin lmax).2) := by
  obtain ⟨uuid, clientid, value, type, data⟩ := msg
  have other : ¬ actuatorTypeContinuous = actuatorTypeDiscrete := by decide
  let named : Actuator := { actuator with uuid := stringFromchar uuid }
  let owned : Actuator :=
    { named with clientid := (clientid.map stringFromchar).or actuator.clientid }
  refine ⟨owned.setValue value, ⟨rfl, rfl, rfl⟩, ?_, ?_⟩
  · intro choices isType isData
    simp only at isType isData
    subst isType isData
    simp only [updateFrommsg, ↓reduceIte, MsgActuator.discrete, Exec.ok_bind, deref_some]
    cases clientid <;> rfl
  · intro lmin lmax isType isData
    simp only at isType isData
    subst isType isData
    simp only [updateFrommsg, other, ↓reduceIte, MsgActuator.continuous, Exec.ok_bind, deref_some,
      Exec.pure_eq_ok]
    cases clientid <;> rfl

end Actuator

/-- `nrm_scope_update_frommsg`: the maps are replaced, the uuid is not. -/
def scopeUpdateFrommsg (scope : Scope) : Option MsgScope → Scope
  | none => scope
  | some msg =>
      { scope with
        cpu := .fromArray msg.cpus
        numa := .fromArray msg.numas
        gpu := .fromArray msg.gpus }

/-- The four `nrm_x_update_frommsg`, applied to the member of the reply they read. For a sensor
and for a slice there is nothing to update. -/
def Object.updateFrommsg (msg : MsgAdd) : Object → Exec Object
  | .slice object => do
      let _ ← msg.slice
      pure (.slice object)
  | .sensor object => do
      let _ ← msg.sensor
      pure (.sensor object)
  | .scope object => do pure (.scope (scopeUpdateFrommsg object (← msg.scope)))
  | .actuator object => do pure (.actuator (← object.updateFrommsg (← msg.actuator)))

/-- The loop over a LIST reply. `keep` is the test on the uuid that only `nrm_client_find`
makes; an actuator of unknown type is listed as NULL. -/
def MsgList.objects (keep : List UInt8 → Bool) (msg : MsgList) :
    TargetType → Exec (List (Option Object))
  | .actuator => do
      let actuators ← deref (← msg.actuators)
      (actuators.filter fun item => keep item.uuid).mapM fun item => do
        let actuator ← Actuator.createFrommsg (some item)
        pure (actuator.map .actuator)
  | .scope => do
      let scopes ← deref (← msg.scopes)
      pure ((scopes.filter fun item => keep item.uuid).map fun item =>
        (scopeCreateFrommsg (some item)).map .scope)
  | .sensor => do
      let sensors ← deref (← msg.sensors)
      pure ((sensors.filter fun item => keep item.uuid).map fun item =>
        (sensorCreateFrommsg (some item)).map .sensor)
  | .slice => do
      let slices ← deref (← msg.slices)
      pure ((slices.filter fun item => keep item.uuid).map fun item =>
        (sliceCreateFrommsg (some item)).map .slice)

inductive Call where
  /-- `nrm_client_actuate` -/
  | actuate (actuator : Actuator) (value : ℚ)
  /-- `nrm_client_add_x` -/
  | add (object : Object)
  /-- `nrm_client_list_xs` -/
  | list (target : TargetType)
  /-- `nrm_client_find` -/
  | find (target : TargetType) (uuid : List UInt8)
  /-- `nrm_client_remove_x` -/
  | remove (target : TargetType) (uuid : NrmString)
  /-- `nrm_client_send_tick` -/
  | sendTick
  /-- `nrm_client_send_event` -/
  | sendEvent (time : NrmTime) (sensor : Sensor) (scope : Scope) (value : ℚ)
  /-- `nrm_client_send_exit` -/
  | sendExit
deriving DecidableEq

inductive Answer where
  | done
  | updated (object : Object)
  | listed (objects : List (Option Object))
deriving DecidableEq

namespace Call

/-- Whether the call waits for a reply. -/
def blocking : Call → Bool
  | .sendEvent _ _ _ _ => false
  | .sendExit => false
  | _ => true

/-- A LIST request carries an empty list of the type it asks for. -/
def listRequest : TargetType → Exec Msg
  | .actuator => (Msg.fill .list).setListActuators []
  | .scope => .ok ((Msg.fill .list).setListScopes [])
  | .sensor => .ok ((Msg.fill .list).setListSensors [])
  | .slice => .ok ((Msg.fill .list).setListSlices [])

/-- The message a call sends, if it sends one. -/
def request : Call → Exec (Option Msg)
  | .actuate actuator value => do
      let err ← actuator.validateValue value
      -- an invalid value is refused before anything is sent
      if err ≠ 0 then pure none
      else pure (some ((Msg.fill .actuate).setActuate actuator.uuid value))
  | .add object => do pure (some (← object.addMsg))
  | .list target => do pure (some (← listRequest target))
  | .find target _ => do pure (some (← listRequest target))
  | .remove target uuid => .ok (some ((Msg.fill .remove).setRemove target uuid))
  | .sendTick => .ok (some (Msg.fill .tick))
  | .sendEvent time sensor scope value => do
      let timeserie := (Timeserie.create sensor.uuid (.object scope)).addEvent ⟨time, value⟩
      pure (some (← (Msg.fill .events).setEvents [timeserie]))
  | .sendExit => .ok (some (Msg.fill .exit))

/-- The end of a call that only expects an acknowledgement. -/
def finishAck (msg : Msg) : Exec Answer := do
  assert (msg.type = MsgType.ack.toInt)
  pure .done

/-- The end of a listing call. -/
def finishList (target : TargetType) (keep : List UInt8 → Bool) (msg : Msg) : Exec Answer := do
  assert (msg.type = MsgType.list.toInt)
  let list ← deref (← msg.list)
  assert (list.type = target.toInt)
  pure (.listed (← list.objects keep target))

def finish : Call → Msg → Exec Answer
  | .actuate _ _, msg => finishAck msg
  | .add object, msg => do
      assert (msg.type = MsgType.add.toInt)
      let add ← deref (← msg.add)
      assert (add.type = object.type.toInt)
      pure (.updated (← object.updateFrommsg add))
  | .list target, msg => finishList target (fun _ => true) msg
  | .find target uuid, msg =>
      -- `strcmp`
      finishList target (fun item => stringFromchar uuid = stringFromchar item) msg
  | .remove _ _, msg => finishAck msg
  | .sendTick, msg => finishAck msg
  | .sendEvent _ _ _ _, _ => .ok .done
  | .sendExit, _ => .ok .done

end Call

/-- `nrm_client_event_listener_fn`, a function of the user that may change the user's data. -/
abbrev EventListener (L : Type) := L → NrmString → NrmTime → Option Scope → ℚ → L

section Listening

variable {L : Type}

def subEventsLoop (userFn : EventListener L) (uuid : NrmString) (scope : Option Scope) :
    L → List MsgEvent → L
  | data, [] => data
  | data, e :: rest =>
      subEventsLoop userFn uuid scope (userFn data uuid (.fromns e.time) scope e.value) rest

def subSeriesLoop (userFn : EventListener L) : L → List MsgTimeserie → L
  | data, [] => data
  | data, ts :: rest =>
      let uuid := stringFromchar ts.sensorUuid
      let scope := scopeCreateFrommsg ts.scope
      subSeriesLoop userFn (subEventsLoop userFn uuid scope data ts.events) rest

/-- `nrm_client__sub_callback` -/
def subCallback (userFn : Option (EventListener L)) (data : L) (msg : Msg) : Exec L :=
  match userFn with
  | none => .ok data
  | some userFn => do
      let series ← deref (← msg.events)
      pure (subSeriesLoop userFn data series)

end Listening

end LibNrm
