import LibNrm.Messages.Print
import LibNrm.State

namespace LibNrm

/-! A method of `Server` is the function `nrm_server_x` of `server.c`.  What a
handler sends through its role is returned as a list, in sending order.
`U` is the user's own data and `E` what a user callback reads from its
environment (clock readings and the like).  `frame` is the content of the stack
that `nrm_hash_remove` looks at.
-/

inductive Emit where
  /-- `nrm_role_send(role, msg, dest)` -/
  | send (dest : NrmString) (msg : Msg)
  /-- `nrm_role_pub(role, topic, msg)` -/
  | pub (topic : NrmString) (msg : Msg)
deriving DecidableEq, Repr

structure Server (U : Type) where
  state : State
  logLevel : Int
  user : U

/-- The return code of a handler, the server it leaves and what it sent. -/
structure Outcome (U : Type) where
  code : Int
  server : Server U
  emitted : List Emit

/-- `nrm_server_user_callbacks_t`; a callback that is not set is NULL. -/
structure UserCallbacks (U E : Type) where
  event : Option (Server U → NrmString → Option Scope → NrmTime → ℚ → Exec (U × List Emit))
  actuate : Option (U → Actuator → ℚ → Int)
  tick : Option (E → Server U → Exec (Outcome U))
  timer : Option (E → Server U → Exec (Outcome U))

namespace Server

variable {U E : Type}

def actuateCallback (callbacks : UserCallbacks U E) (self : Server U) (clientid : NrmString)
    (msg : Option MsgActuate) : Exec (Outcome U) := do
  let msg ← deref msg
  let uuid := stringFromchar msg.uuid
  let ack := Emit.send clientid (Msg.fill .ack)
  match (self.state.actuators.find uuid).2 with
  | none => pure ⟨0, self, [ack]⟩
  | some a =>
      let accept ← deref callbacks.actuate
      if accept self.user a msg.value = 0 then do
        -- the return code of the correction is dropped
        let (_, value) ← a.correctedValue msg.value
        let actuators := self.state.actuators.modify uuid fun a => a.setValue value
        let owner ← deref a.clientid
        let action := (Msg.fill .actuate).setActuate uuid value
        pure ⟨0, { self with state := { self.state with actuators := actuators } },
          [.send (stringFromchar owner) action, ack]⟩
      else pure ⟨0, self, [ack]⟩

/-- The inner loop of `nrm_server_events_callback`, over the events of a series. -/
def eventsLoop (callbacks : UserCallbacks U E) (uuid : NrmString) (scope : Option Scope) :
    Server U → List MsgEvent → Exec (Server U × List Emit)
  | self, [] => .ok (self, [])
  | self, e :: rest => do
      let event ← deref callbacks.event
      let (user, first) ← event self uuid scope (.fromns e.time) e.value
      let (self, later) ← eventsLoop callbacks uuid scope { self with user := user } rest
      pure (self, first ++ later)

def seriesLoop (callbacks : UserCallbacks U E) :
    Server U → List MsgTimeserie → Exec (Server U × List Emit)
  | self, [] => .ok (self, [])
  | self, ts :: rest => do
      let uuid := stringFromchar ts.sensorUuid
      let scope := scopeCreateFrommsg ts.scope
      let (self, first) ← eventsLoop callbacks uuid scope self ts.events
      let (self, later) ← seriesLoop callbacks self rest
      pure (self, first ++ later)

def eventsCallback (callbacks : UserCallbacks U E) (self : Server U)
    (msg : Option (List MsgTimeserie)) : Exec (Outcome U) := do
  let series ← deref msg
  let (self, emitted) ← seriesLoop callbacks self series
  pure ⟨0, self, emitted⟩

def addActuator (self : Server U) (clientid : NrmString) (msg : Option MsgActuator) :
    Exec (Msg × Server U) := do
  let actuator ← Actuator.createFrommsg msg
  -- `nrm_actuator_set_clientid` asserts on its argument
  assert actuator.isSome
  let actuator ← deref actuator
  let actuator := actuator.setClientid (stringFromchar clientid)
  let (err, state) ← self.state.addActuator (some actuator)
  if err ≠ 0 then pure (Msg.fill .ack, { self with state := state })
  else do
    let ret ← (Msg.fill .add).setAddActuator actuator
    pure (ret, { self with state := state })

/-- `NRM_SERVER_ADD_FUNC(type)`: decode, store, and answer with what was decoded. -/
def addWith (decoded : Option α) (store : State → Option α → Exec (Int × State))
    (encode : Msg → α → Msg) (self : Server U) : Exec (Msg × Server U) := do
  let (err, state) ← store self.state decoded
  if err ≠ 0 then pure (Msg.fill .ack, { self with state := state })
  else do
    let r ← deref decoded
    pure (encode (Msg.fill .add) r, { self with state := state })

def addScope (self : Server U) (msg : Option MsgScope) : Exec (Msg × Server U) :=
  self.addWith (scopeCreateFrommsg msg) State.addScope Msg.setAddScope

def addSensor (self : Server U) (msg : Option MsgSensor) : Exec (Msg × Server U) :=
  self.addWith (sensorCreateFrommsg msg) State.addSensor Msg.setAddSensor

def addSlice (self : Server U) (msg : Option MsgSlice) : Exec (Msg × Server U) :=
  self.addWith (sliceCreateFrommsg msg) State.addSlice Msg.setAddSlice

/-- The end shared by the add, list and remove callbacks: print the reply and
send it to the requester. -/
def reply (clientid : NrmString) : Msg × Server U → Exec (Outcome U)
  | (ret, self) => do
      logPrintmsg self.logLevel (some ret)
      pure ⟨0, self, [.send clientid ret]⟩

def addCallback (self : Server U) (clientid : NrmString) (msg : Option MsgAdd) :
    Exec (Outcome U) := do
  let msg ← deref msg
  match TargetType.ofInt? msg.type with
  | some .actuator => do reply clientid (← self.addActuator clientid (← msg.actuator))
  | some .slice => do reply clientid (← self.addSlice (← msg.slice))
  | some .sensor => do reply clientid (← self.addSensor (← msg.sensor))
  | some .scope => do reply clientid (← self.addScope (← msg.scope))
  | none => pure ⟨-1, self, []⟩

def listActuators (self : Server U) : Exec Msg :=
  (Msg.fill .list).setListActuators self.state.listActuators

def listScopes (self : Server U) : Msg := (Msg.fill .list).setListScopes self.state.listScopes

def listSensors (self : Server U) : Msg := (Msg.fill .list).setListSensors self.state.listSensors

def listSlices (self : Server U) : Msg := (Msg.fill .list).setListSlices self.state.listSlices

def listCallback (self : Server U) (clientid : NrmString) (msg : Option MsgList) :
    Exec (Outcome U) := do
  let msg ← deref msg
  match TargetType.ofInt? msg.type with
  | some .actuator => do reply clientid (← self.listActuators, self)
  | some .slice => reply clientid (self.listSlices, self)
  | some .sensor => reply clientid (self.listSensors, self)
  | some .scope => reply clientid (self.listScopes, self)
  | none => pure ⟨-1, self, []⟩

/-- `NRM_SERVER_REMOVE_FUNC(type)`: the answer is an ACK whatever the state did. -/
def removeWith (remove : State → List UInt8 → Exec (State × α)) (self : Server U)
    (uuid : List UInt8) : Exec (Msg × Server U) := do
  let (state, _) ← remove self.state uuid
  pure (Msg.fill .ack, { self with state := state })

def removeActuator (frame : List UInt8) (self : Server U) (uuid : List UInt8) :
    Exec (Msg × Server U) := self.removeWith (State.removeActuator frame) uuid

def removeScope (frame : List UInt8) (self : Server U) (uuid : List UInt8) :
    Exec (Msg × Server U) := self.removeWith (State.removeScope frame) uuid

def removeSensor (frame : List UInt8) (self : Server U) (uuid : List UInt8) :
    Exec (Msg × Server U) := self.removeWith (State.removeSensor frame) uuid

def removeSlice (frame : List UInt8) (self : Server U) (uuid : List UInt8) :
    Exec (Msg × Server U) := self.removeWith (State.removeSlice frame) uuid

def removeCallback (frame : List UInt8) (self : Server U) (clientid : NrmString)
    (msg : Option MsgRemove) : Exec (Outcome U) := do
  let msg ← deref msg
  match TargetType.ofInt? msg.type with
  | some .actuator => do reply clientid (← self.removeActuator frame msg.uuid)
  | some .slice => do reply clientid (← self.removeSlice frame msg.uuid)
  | some .sensor => do reply clientid (← self.removeSensor frame msg.uuid)
  | some .scope => do reply clientid (← self.removeScope frame msg.uuid)
  | none => pure ⟨-1, self, []⟩

def exitCallback (self : Server U) (uuid : NrmString) : Outcome U :=
  -- -1 ends the loop
  ⟨-1, self, [.send uuid (Msg.fill .ack)]⟩

def tickCallback (callbacks : UserCallbacks U E) (env : E) (self : Server U) (uuid : NrmString) :
    Exec (Outcome U) := do
  let ack := Emit.send uuid (Msg.fill .ack)
  match callbacks.tick with
  | none => pure ⟨0, self, [ack]⟩
  | some tick => do
      let outcome ← tick env self
      pure ⟨outcome.code, outcome.server, outcome.emitted ++ [ack]⟩

/-- A message as `nrm_role_recv` hands it to the server, with the circumstances
it is handled in. -/
structure Inbound (E : Type) where
  clientid : NrmString
  msg : Option Msg
  frame : List UInt8
  env : E

def roleCallback (callbacks : UserCallbacks U E) (self : Server U) (inbound : Inbound E) :
    Exec (Outcome U) := do
  logPrintmsg self.logLevel inbound.msg
  let msg ← deref inbound.msg
  let uuid := inbound.clientid
  match MsgType.ofInt? msg.type with
  | some .actuate => do self.actuateCallback callbacks uuid (← msg.actuate)
  | some .list => do self.listCallback uuid (← msg.list)
  | some .add => do self.addCallback uuid (← msg.add)
  | some .events => do self.eventsCallback callbacks (← msg.events)
  | some .remove => do self.removeCallback inbound.frame uuid (← msg.remove)
  | some .exit => pure (self.exitCallback uuid)
  | some .tick => self.tickCallback callbacks inbound.env uuid
  | _ => pure ⟨-nrmEinval, self, []⟩

/-- `nrm_server_actuate`, which bypasses the user's validation. -/
def actuate (self : Server U) (uuid : NrmString) (value : ℚ) : Exec (Server U × List Emit) :=
  match (self.state.actuators.find uuid).2 with
  | none => .ok (self, [])
  | some a => do
      let (_, value) ← a.correctedValue value
      let actuators := self.state.actuators.modify uuid fun a => a.setValue value
      let owner ← deref a.clientid
      let action := (Msg.fill .actuate).setActuate uuid value
      pure ({ self with state := { self.state with actuators := actuators } },
        [.send (stringFromchar owner) action])

/-- `nrm_server_publish`; a call without a scope is refused. -/
def publish (self : Server U) (topic : NrmString) (now : NrmTime) (sensorUuid : NrmString)
    (scope : Option Scope) (value : ℚ) : Exec (List Emit) :=
  match scope with
  | none => .ok []
  | some scope => do
      let timeserie := (Timeserie.create sensorUuid (.object scope)).addEvent ⟨now, value⟩
      let msg ← (Msg.fill .events).setEvents [timeserie]
      logPrintmsg self.logLevel (some msg)
      pure [.pub topic msg]

/-- `nrm_msg_push_identity`, called by `nrm_msg_sendto`: the frame holds the uuid as a C string. -/
def msgPushIdentity (uuid : NrmString) : List UInt8 := stringFromchar uuid

/-- `nrm_msg_recvfrom`: an identity frame, an empty delimiter and the packed
message, which `nrm__message__unpack` may reject. -/
def msgRecvfrom (unpack : List UInt8 → Option Msg) (frames : List (List UInt8)) :
    Exec (NrmString × Option Msg) :=
  match frames with
  | identity :: delimiter :: payload :: _ => do
      assert (delimiter = [])
      pure (stringFrombuf identity, unpack payload)
  | _ => .error .assertionFailed

/-- What one multipart message does to the daemon: the controller broker
receives and prints it, the server handles it. -/
def handleFrames (callbacks : UserCallbacks U E) (unpack : List UInt8 → Option Msg)
    (frame : List UInt8) (env : E) (self : Server U) (frames : List (List UInt8)) :
    Exec (Outcome U) := do
  let (uuid, msg) ← msgRecvfrom unpack frames
  logPrintmsg self.logLevel msg
  self.roleCallback callbacks ⟨uuid, msg, frame, env⟩

end Server

end LibNrm
