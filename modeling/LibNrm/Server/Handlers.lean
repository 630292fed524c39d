import LibNrm.Registry

namespace LibNrm

/-- The object an ADD request asks to register. An actuator belongs to the client that sent the
request, whatever the request says. -/
def MsgAdd.object (clientid : NrmString) (msg : MsgAdd) : Option Object :=
  match msg.data with
  | none => none
  | some (.slice slice) => (sliceCreateFrommsg (some slice)).map .slice
  | some (.sensor sensor) => (sensorCreateFrommsg (some sensor)).map .sensor
  | some (.scope scope) => (scopeCreateFrommsg (some scope)).map .scope
  | some (.actuator actuator) =>
      some (.actuator (actuator.decoded.setClientid (stringFromchar clientid)))

/-- The ADD message that carries an object. -/
def Object.addMsg : Object → Exec Msg
  | .slice object => .ok ((Msg.fill .add).setAddSlice object)
  | .sensor object => .ok ((Msg.fill .add).setAddSensor object)
  | .scope object => .ok ((Msg.fill .add).setAddScope object)
  | .actuator object => (Msg.fill .add).setAddActuator object

def Object.Consistent : Object → Prop
  | .actuator object => object.Consistent
  | _ => True

theorem Object.Ready.consistent {object : Object} (ready : object.Ready) : object.Consistent := by
  cases object with
  | slice object => trivial
  | sensor object => trivial
  | scope object => trivial
  | actuator object => exact Actuator.Ready.consistent ready

theorem Object.Consistent.addMsg {object : Object} (consistent : object.Consistent) :
    ∃ add, object.addMsg = .ok ⟨MsgType.add.toInt, some (.add add)⟩ ∧ add.WellFormed ∧
      add.type = object.type.toInt := by
  cases object with
  | slice object => exact ⟨_, rfl, .slice _ rfl rfl, rfl⟩
  | sensor object => exact ⟨_, rfl, .sensor _ rfl rfl, rfl⟩
  | scope object => exact ⟨_, rfl, .scope _ rfl rfl, rfl⟩
  | actuator object =>
      obtain ⟨payload, encoded, wellFormed⟩ := Actuator.Consistent.msgActuatorNew consistent
      refine ⟨⟨TargetType.actuator.toInt, some (.actuator payload)⟩, ?_,
        .actuator payload rfl rfl wellFormed, rfl⟩
      simp [Object.addMsg, Msg.setAddActuator, encoded, Msg.fill]

theorem MsgAdd.WellFormed.object {msg : MsgAdd} (wellFormed : msg.WellFormed) (clientid : NrmString) :
    ∃ object, msg.object clientid = some object ∧ object.Ready ∧
      msg.type = object.type.toInt := by
  cases wellFormed with
  | slice slice type data =>
      exact ⟨.slice (sliceCreate slice.uuid), by simp only [MsgAdd.object, data]; rfl, trivial, type⟩
  | sensor sensor type data =>
      exact ⟨.sensor (sensorCreate sensor.uuid), by simp only [MsgAdd.object, data]; rfl, trivial,
        type⟩
  | scope scope type data =>
      exact ⟨.scope scope.decoded, by simp only [MsgAdd.object, data]; rfl, trivial, type⟩
  | actuator actuator type data inner =>
      refine ⟨.actuator (actuator.decoded.setClientid (stringFromchar clientid)), ?_, ?_, type⟩
      · simp only [MsgAdd.object, data]
      · exact ⟨inner.decoded_consistent.setClientid _, _, rfl⟩

/-- What the server sends on its own account: an ACTUATE for an owner. -/
def Msg.isCommand (msg : Msg) : Bool := msg.type = MsgType.actuate.toInt

namespace Server

variable {U E : Type}

theorem reply_of_wellFormed {ret : Msg} (wellFormed : ret.WellFormed) (clientid : NrmString)
    (self : Server U) : reply clientid (ret, self) = .ok ⟨0, self, [.send clientid ret]⟩ := by
  simp [reply, logPrintmsg_of_toJson wellFormed.toJson]

/-- A well-formed ADD stores its object if the uuid is free, and answers with
the object in any case. -/
theorem addCallback_spec (self : Server U) (clientid : NrmString) {msg : MsgAdd} {object : Object}
    (wellFormed : msg.WellFormed) (decoded : msg.object clientid = some object) :
    ∃ add, object.addMsg = .ok ⟨MsgType.add.toInt, some (.add add)⟩ ∧ add.WellFormed ∧
      add.type = object.type.toInt ∧
      self.addCallback clientid (some msg) =
        .ok ⟨0, { self with state := self.state.store object },
          [.send clientid ⟨MsgType.add.toInt, some (.add add)⟩]⟩ := by
  obtain ⟨other, same, ready, _⟩ := wellFormed.object clientid
  cases same.symm.trans decoded
  obtain ⟨add, encoded, addWellFormed, addType⟩ := ready.consistent.addMsg
  have replyWellFormed : Msg.WellFormed ⟨MsgType.add.toInt, some (.add add)⟩ :=
    .add add rfl rfl addWellFormed
  have answered := reply_of_wellFormed replyWellFormed clientid
    { self with state := self.state.store object }
  refine ⟨add, encoded, addWellFormed, addType, ?_⟩
  rw [← answered]
  cases wellFormed with
  | slice slice type data =>
      simp only [MsgAdd.object, data, sliceCreateFrommsg, Option.map_some, Option.some.injEq] at decoded
      subst decoded
      cases encoded
      simp only [addCallback, deref_some, Exec.ok_bind, type, TargetType.ofInt?_toInt,
        MsgAdd.slice, data, addSlice, addWith, sliceCreateFrommsg, Option.map_some, State.addSlice]
      rfl
  | sensor sensor type data =>
      simp only [MsgAdd.object, data, sensorCreateFrommsg, Option.map_some, Option.some.injEq] at decoded
      subst decoded
      cases encoded
      simp only [addCallback, deref_some, Exec.ok_bind, type, TargetType.ofInt?_toInt,
        MsgAdd.sensor, data, addSensor, addWith, sensorCreateFrommsg, Option.map_some,
        State.addSensor]
      rfl
  | scope scope type data =>
      simp only [MsgAdd.object, data, scopeCreateFrommsg, Option.map_some, Option.some.injEq] at decoded
      subst decoded
      cases encoded
      simp only [addCallback, deref_some, Exec.ok_bind, type, TargetType.ofInt?_toInt,
        MsgAdd.scope, data, addScope, addWith, scopeCreateFrommsg, Option.map_some, State.addScope]
      rfl
  | actuator actuator type data inner =>
      simp only [MsgAdd.object, data, Option.some.injEq] at decoded
      subst decoded
      simp only [addCallback, deref_some, Exec.ok_bind, type, TargetType.ofInt?_toInt,
        MsgAdd.actuator, data, addActuator, inner.createFrommsg, Option.isSome_some, assert_true,
        State.addActuator, Exec.pure_eq_ok]
      simp only [Object.addMsg] at encoded
      simp only [encoded, State.store]
      rfl

def listMsg (self : Server U) : TargetType → Exec Msg
  | .slice => .ok self.listSlices
  | .sensor => .ok self.listSensors
  | .scope => .ok self.listScopes
  | .actuator => self.listActuators

/-- A LIST of a known type is answered with a list of that type, and changes nothing. -/
theorem listCallback_spec (registry : Registry) (self : Server U) (stored : self.state = registry.state)
    (clientid : NrmString) {msg : MsgList} {target : TargetType} (known : msg.type = target.toInt) :
    ∃ list : MsgList, list.WellFormed ∧ list.type = target.toInt ∧
      self.listMsg target = .ok ⟨MsgType.list.toInt, some (.list list)⟩ ∧
      self.listCallback clientid (some msg) =
        .ok ⟨0, self, [.send clientid ⟨MsgType.list.toInt, some (.list list)⟩]⟩ := by
  have answer (list : MsgList) (wellFormed : list.WellFormed) :
      reply clientid (⟨MsgType.list.toInt, some (.list list)⟩, self) =
        .ok ⟨0, self, [.send clientid ⟨MsgType.list.toInt, some (.list list)⟩]⟩ :=
    reply_of_wellFormed (.list list rfl rfl wellFormed) clientid self
  cases target with
  | slice =>
      have inner : MsgList.WellFormed ⟨TargetType.slice.toInt, some (.slices
          (self.state.listSlices.map fun slice => msgSliceNew slice.uuid))⟩ := .slice _ rfl rfl
      refine ⟨_, inner, rfl, rfl, ?_⟩
      simp only [listCallback, deref_some, Exec.ok_bind, known, TargetType.ofInt?_toInt]
      exact answer _ inner
  | sensor =>
      have inner : MsgList.WellFormed ⟨TargetType.sensor.toInt, some (.sensors
          (self.state.listSensors.map fun sensor => msgSensorNew sensor.uuid))⟩ := .sensor _ rfl rfl
      refine ⟨_, inner, rfl, rfl, ?_⟩
      simp only [listCallback, deref_some, Exec.ok_bind, known, TargetType.ofInt?_toInt]
      exact answer _ inner
  | scope =>
      have inner : MsgList.WellFormed ⟨TargetType.scope.toInt, some (.scopes
          (self.state.listScopes.map msgScopeNew))⟩ := .scope _ rfl rfl
      refine ⟨_, inner, rfl, rfl, ?_⟩
      simp only [listCallback, deref_some, Exec.ok_bind, known, TargetType.ofInt?_toInt]
      exact answer _ inner
  | actuator =>
      obtain ⟨payload, encoded, each⟩ :
          ∃ payload, self.state.listActuators.mapM msgActuatorNew = .ok payload ∧
            List.Forall₂ (fun _ item => MsgActuator.WellFormed item) self.state.listActuators
              payload := by
        apply Exec.mapM_ok
        intro actuator listed
        rw [stored] at listed
        obtain ⟨⟨key, other⟩, member, rfl⟩ := List.mem_map.mp listed
        exact (registry.ready _ member).consistent.msgActuatorNew
      have inner : MsgList.WellFormed ⟨TargetType.actuator.toInt, some (.actuators payload)⟩ :=
        .actuator payload rfl rfl (forall_mem_of_forall₂ each)
      have built : self.listActuators = .ok ⟨MsgType.list.toInt,
          some (.list ⟨TargetType.actuator.toInt, some (.actuators payload)⟩)⟩ := by
        simp only [listActuators, Msg.setListActuators, encoded, Exec.ok_bind, Msg.fill, Exec.pure_eq_ok]
      refine ⟨_, inner, rfl, built, ?_⟩
      simp only [listCallback, deref_some, Exec.ok_bind, known, TargetType.ofInt?_toInt, built]
      exact answer _ inner

/-- The command an actuation sends to the owner. -/
def command (uuid : NrmString) (value : ℚ) : Msg := (Msg.fill .actuate).setActuate uuid value

@[simp] theorem command_isCommand (uuid : NrmString) (value : ℚ) :
    (command uuid value).isCommand = true := rfl

theorem actuate_spec (registry : Registry) (self : Server U) (stored : self.state = registry.state)
    (uuid : NrmString) (value : ℚ) :
    self.state.actuators.lookup uuid = none ∧ self.actuate uuid value = .ok (self, []) ∨
    ∃ a code corrected owner, self.state.actuators.lookup uuid = some a ∧
      a.correctedValue value = .ok (code, corrected) ∧ a.clientid = some owner ∧
      self.actuate uuid value =
        .ok ({ self with state := (registry.setValue uuid corrected).state },
          [.send (stringFromchar owner) (command uuid corrected)]) := by
  simp only [Server.actuate, Hash.find_snd]
  cases found : self.state.actuators.lookup uuid with
  | none => exact .inl ⟨rfl, rfl⟩
  | some a =>
      have ready := registry.ready_of_lookup (stored ▸ found)
      obtain ⟨code, corrected, computed⟩ := ready.consistent.correctedValue_completes value
      obtain ⟨owner, owned⟩ := ready.owned
      refine .inr ⟨a, code, corrected, owner, rfl, computed, owned, ?_⟩
      simp only [computed, Exec.ok_bind, owned, deref_some, Exec.pure_eq_ok, stored,
        Registry.setValue_state]
      rfl

/-- An ACTUATE is acknowledged; it is carried out when the uuid is registered
and the user's callback accepts. -/
theorem actuateCallback_spec (callbacks : UserCallbacks U E) {accept : U → Actuator → ℚ → Int}
    (set : callbacks.actuate = some accept) (registry : Registry) (self : Server U)
    (stored : self.state = registry.state) (clientid : NrmString) (msg : MsgActuate) :
    (∀ a, self.state.actuators.lookup (stringFromchar msg.uuid) = some a →
        accept self.user a msg.value ≠ 0) ∧
      self.actuateCallback callbacks clientid (some msg) =
        .ok ⟨0, self, [.send clientid (Msg.fill .ack)]⟩ ∨
    ∃ a code corrected owner, self.state.actuators.lookup (stringFromchar msg.uuid) = some a ∧
      accept self.user a msg.value = 0 ∧
      a.correctedValue msg.value = .ok (code, corrected) ∧ a.clientid = some owner ∧
      self.actuateCallback callbacks clientid (some msg) =
        .ok ⟨0, { self with state := (registry.setValue (stringFromchar msg.uuid) corrected).state },
          [.send (stringFromchar owner) (command (stringFromchar msg.uuid) corrected),
            .send clientid (Msg.fill .ack)]⟩ := by
  simp only [actuateCallback, deref_some, Exec.ok_bind, Hash.find_snd, set]
  cases found : self.state.actuators.lookup (stringFromchar msg.uuid) with
  | none => exact .inl ⟨by simp, rfl⟩
  | some a =>
      by_cases accepted : accept self.user a msg.value = 0
      · have ready := registry.ready_of_lookup (stored ▸ found)
        obtain ⟨code, corrected, computed⟩ := ready.consistent.correctedValue_completes msg.value
        obtain ⟨owner, owned⟩ := ready.owned
        refine .inr ⟨a, code, corrected, owner, rfl, accepted, computed, owned, ?_⟩
        simp only [accepted, ↓reduceIte, computed, Exec.ok_bind, owned, deref_some,
          Exec.pure_eq_ok, stored, Registry.setValue_state]
        rfl
      · left
        simp only [accepted, ↓reduceIte, Option.some.injEq]
        refine ⟨?_, rfl⟩
        rintro other rfl
        exact accepted

end Server

end LibNrm
