import LibNrm.Server.Steps

namespace LibNrm

/-! Every dispatch layer trusts the type field of a message and follows the payload
that type announces.  `Harmless` says which messages keep that trust; at debug
level the printer adds conditions of its own.
-/

def MsgActuator.Printable (msg : MsgActuator) : Prop :=
  (msg.type = actuatorTypeDiscrete → ∃ choices, msg.data = some (.discrete choices)) ∧
    (msg.type = actuatorTypeContinuous → ∃ lmin lmax, msg.data = some (.continuous lmin lmax))

def MsgAdd.Printable (msg : MsgAdd) : Prop :=
  match TargetType.ofInt? msg.type with
  | some .actuator => ∃ actuator, msg.data = some (.actuator actuator) ∧ actuator.Printable
  | some .slice => ∃ slice, msg.data = some (.slice slice)
  | some .sensor => ∃ sensor, msg.data = some (.sensor sensor)
  | some .scope => ∃ scope, msg.data = some (.scope scope)
  | none => True

def MsgList.Printable (msg : MsgList) : Prop :=
  match TargetType.ofInt? msg.type with
  | some .actuator =>
      ∃ actuators, msg.data = some (.actuators actuators) ∧ ∀ a ∈ actuators, a.Printable
  | some .slice => ∃ slices, msg.data = some (.slices slices)
  | some .sensor => ∃ sensors, msg.data = some (.sensors sensors)
  | some .scope => ∃ scopes, msg.data = some (.scopes scopes)
  | none => True

def Msg.Printable (msg : Msg) : Prop :=
  match MsgType.ofInt? msg.type with
  | some .actuate => ∃ actuate, msg.data = some (.actuate actuate)
  | some .add => ∃ add, msg.data = some (.add add) ∧ add.Printable
  | some .list => ∃ list, msg.data = some (.list list) ∧ list.Printable
  | some .events => ∃ series, msg.data = some (.events series) ∧ ∀ ts ∈ series, ts.scope.isSome
  | some .remove => ∃ remove, msg.data = some (.remove remove)
  | _ => True

theorem MsgActuator.toJson_completes (msg : MsgActuator) : msg.toJson.Completes ↔ msg.Printable := by
  obtain ⟨uuid, clientid, value, type, data⟩ := msg
  simp only [MsgActuator.toJson, MsgActuator.Printable]
  by_cases discrete : type = actuatorTypeDiscrete
  · subst discrete
    rcases data with _ | (choices | ⟨lmin, lmax⟩) <;>
      simp [MsgActuator.discrete, actuatorTypeDiscrete, actuatorTypeContinuous]
  · by_cases continuous : type = actuatorTypeContinuous
    · subst continuous
      rcases data with _ | (choices | ⟨lmin, lmax⟩) <;>
        simp [MsgActuator.continuous, actuatorTypeDiscrete, actuatorTypeContinuous]
    · simp [discrete, continuous]

theorem MsgAdd.toJson_completes (msg : MsgAdd) : msg.toJson.Completes ↔ msg.Printable := by
  obtain ⟨type, data⟩ := msg
  simp only [MsgAdd.toJson, MsgAdd.Printable]
  cases TargetType.ofInt? type with
  | none => simp
  | some target =>
      cases target <;> rcases data with _ | (slice | sensor | scope | actuator) <;>
        simp [MsgAdd.slice, MsgAdd.sensor, MsgAdd.scope, MsgAdd.actuator,
          MsgActuator.toJson_completes]

theorem MsgList.toJson_completes (msg : MsgList) : msg.toJson.Completes ↔ msg.Printable := by
  obtain ⟨type, data⟩ := msg
  simp only [MsgList.toJson, MsgList.Printable]
  have walked (actuators : List MsgActuator) :
      (actuators.forM MsgActuator.toJson).Completes ↔ ∀ a ∈ actuators, a.Printable := by
    simp only [forM_completes_iff, MsgActuator.toJson_completes]
  cases TargetType.ofInt? type with
  | none => simp
  | some target =>
      cases target <;> rcases data with _ | (slices | sensors | scopes | actuators) <;>
        simp [MsgList.slices, MsgList.sensors, MsgList.scopes, MsgList.actuators]
      exact walked actuators

theorem MsgTimeserie.toJson_completes (msg : MsgTimeserie) :
    msg.toJson.Completes ↔ msg.scope.isSome := by
  simp only [MsgTimeserie.toJson]
  cases msg.scope <;> simp

theorem Msg.toJson_completes (msg : Msg) : msg.toJson.Completes ↔ msg.Printable := by
  obtain ⟨type, data⟩ := msg
  simp only [Msg.toJson, Msg.Printable]
  have walked (series : List MsgTimeserie) :
      (series.forM MsgTimeserie.toJson).Completes ↔ ∀ ts ∈ series, ts.scope.isSome := by
    simp only [forM_completes_iff, MsgTimeserie.toJson_completes]
  cases MsgType.ofInt? type with
  | none => simp
  | some kind =>
      cases kind <;> rcases data with _ | (list | add | remove | series | actuate) <;>
        simp [Msg.list, Msg.add, Msg.remove, Msg.events, Msg.actuate, MsgAdd.toJson_completes,
          MsgList.toJson_completes]
      exact walked series

theorem logPrintmsg_completes (logLevel : Int) (msg : Msg) :
    (logPrintmsg logLevel (some msg)).Completes ↔ (logDebug ≤ logLevel → msg.Printable) := by
  simp only [logPrintmsg]
  by_cases silent : logDebug > logLevel
  · simp [silent]
  · simp only [silent, ↓reduceIte, Msg.toJson_completes]
    simp [not_lt.mp silent]

/-- Every user callback is set and returns, and the tick leaves a registry behind. -/
structure UserCallbacks.Total {U E : Type} (callbacks : UserCallbacks U E) : Prop where
  event : ∃ event, callbacks.event = some event ∧
    ∀ server uuid scope time value, (event server uuid scope time value).Completes
  actuate : ∃ actuate, callbacks.actuate = some actuate
  tick : ∃ tick, callbacks.tick = some tick ∧ ∀ env server (registry : Registry),
    server.state = registry.state →
      ∃ outcome after, tick env server = .ok outcome ∧ outcome.server.state = Registry.state after

/-- The payload is the one the type announces. An ADD of a known type decodes; a REMOVE is not
for a scope, and its lookup reads no key and nothing unmapped. -/
def Msg.Dispatchable (frame : List UInt8) (state : State) (msg : Msg) : Prop :=
  match MsgType.ofInt? msg.type with
  | some .actuate => ∃ actuate, msg.data = some (.actuate actuate)
  | some .list => ∃ list, msg.data = some (.list list)
  | some .add => ∃ add, msg.data = some (.add add) ∧
      (TargetType.ofInt? add.type = none ∨ add.WellFormed)
  | some .events => ∃ series, msg.data = some (.events series)
  | some .remove => ∃ remove, msg.data = some (.remove remove) ∧
      ∀ target, TargetType.ofInt? remove.type = some target → target ≠ .scope ∧
        state.Misses frame target (stringFromchar remove.uuid)
  | _ => True

def Msg.Harmless (logLevel : Int) (frame : List UInt8) (state : State) (msg : Msg) : Prop :=
  (logDebug ≤ logLevel → msg.Printable) ∧ msg.Dispatchable frame state

namespace Server

variable {U E : Type}

def Served (handled : Exec (Outcome U)) : Prop :=
  ∃ outcome registry, handled = .ok outcome ∧ outcome.server.state = Registry.state registry

theorem Served.completes {handled : Exec (Outcome U)} (served : Served handled) :
    handled.Completes := by
  obtain ⟨outcome, _, returned, _⟩ := served
  exact ⟨outcome, returned⟩

theorem addCallback_served_iff (registry : Registry) (self : Server U)
    (stored : self.state = registry.state) (clientid : NrmString) (add : MsgAdd) :
    (TargetType.ofInt? add.type = none ∨ add.WellFormed →
      Served (self.addCallback clientid (some add))) ∧
    ((self.addCallback clientid (some add)).Completes →
      TargetType.ofInt? add.type = none ∨ add.WellFormed) := by
  constructor
  · rintro (unknown | wellFormed)
    · exact ⟨⟨-1, self, []⟩, registry, by simp [addCallback, unknown], stored⟩
    · obtain ⟨object, decoded, ready, _⟩ := wellFormed.object clientid
      obtain ⟨_, _, _, _, handled⟩ := self.addCallback_spec clientid wellFormed decoded
      exact ⟨_, registry.register object ready, handled,
        by rw [stored, registry.store_eq_register object ready]⟩
  · intro completed
    cases known : TargetType.ofInt? add.type with
    | none => exact .inl rfl
    | some target => exact .inr (addCallback_wellFormed known completed)

theorem listCallback_served (registry : Registry) (self : Server U)
    (stored : self.state = registry.state) (clientid : NrmString) (list : MsgList) :
    Served (self.listCallback clientid (some list)) := by
  cases known : TargetType.ofInt? list.type with
  | none => exact ⟨⟨-1, self, []⟩, registry, by simp [listCallback, known], stored⟩
  | some target =>
      obtain ⟨_, _, _, _, answered⟩ := self.listCallback_spec registry stored clientid
        (TargetType.ofInt?_eq_some known)
      exact ⟨_, registry, answered, stored⟩

theorem removeCallback_served_iff (registry : Registry) (self : Server U)
    (stored : self.state = registry.state) (frame : List UInt8) (clientid : NrmString)
    (remove : MsgRemove) :
    ((∀ target, TargetType.ofInt? remove.type = some target → target ≠ .scope ∧
        self.state.Misses frame target (stringFromchar remove.uuid)) →
      Served (self.removeCallback frame clientid (some remove))) ∧
    ((self.removeCallback frame clientid (some remove)).Completes →
      ∀ target, TargetType.ofInt? remove.type = some target → target ≠ .scope ∧
        self.state.Misses frame target (stringFromchar remove.uuid)) := by
  obtain ⟨type, uuid⟩ := remove
  cases known : TargetType.ofInt? type with
  | none =>
      refine ⟨fun _ => ⟨⟨-1, self, []⟩, registry, by simp [removeCallback, known], stored⟩, ?_⟩
      intro _ target impossible
      cases impossible
  | some target =>
      have exact := TargetType.ofInt?_eq_some known
      subst exact
      rw [removeCallback_eq]
      constructor
      · intro safe
        obtain ⟨notScope, misses⟩ := safe target rfl
        simp only [State.remove_of_misses misses, notScope, ↓reduceIte, Exec.ok_bind]
        exact ⟨_, registry, rfl, stored⟩
      · intro completed other same
        cases same
        obtain ⟨⟨after, released⟩, removed, _⟩ := Exec.completes_bind.mp completed
        obtain ⟨notScope, misses, _, _⟩ := State.remove_eq_ok removed
        exact ⟨notScope, misses⟩

theorem eventsCallback_served {callbacks : UserCallbacks U E} (total : callbacks.Total)
    (registry : Registry) (self : Server U) (stored : self.state = registry.state)
    (series : List MsgTimeserie) : Served (self.eventsCallback callbacks (some series)) := by
  obtain ⟨event, set, returns⟩ := total.event
  obtain ⟨after, emitted, called, kept, _⟩ :=
    callEvents_total (fun server => server.state = self.state) (fun _ => True)
      (fun server uuid scope time value same => by
        obtain ⟨⟨user, emitted⟩, called⟩ := returns server uuid scope time value
        exact ⟨user, emitted, called, same, fun _ _ => trivial⟩)
      rfl (series.flatMap MsgTimeserie.calls)
  refine ⟨⟨0, after, emitted⟩, registry, ?_, kept.trans stored⟩
  rw [eventsCallback_eq set, called]
  rfl

theorem roleCallback_served {callbacks : UserCallbacks U E} (total : callbacks.Total)
    (registry : Registry) (self : Server U) (stored : self.state = registry.state)
    {inbound : Inbound E} {msg : Msg} (received : inbound.msg = some msg)
    (harmless : msg.Harmless self.logLevel inbound.frame self.state) :
    Served (self.roleCallback callbacks inbound) := by
  obtain ⟨printed, safe⟩ := harmless
  obtain ⟨_, print⟩ := (logPrintmsg_completes self.logLevel msg).mpr printed
  simp only [roleCallback, received, print, Exec.ok_bind, deref_some]
  simp only [Msg.Dispatchable] at safe
  cases kind : MsgType.ofInt? msg.type with
  | none => exact ⟨_, registry, rfl, stored⟩
  | some type =>
      simp only [kind] at safe
      cases type with
      | ack => exact ⟨_, registry, rfl, stored⟩
      | exit => exact ⟨_, registry, rfl, stored⟩
      | list =>
          obtain ⟨list, data⟩ := safe
          simp only [Msg.list, data, Exec.ok_bind]
          exact listCallback_served registry self stored inbound.clientid list
      | add =>
          obtain ⟨add, data, decodes⟩ := safe
          simp only [Msg.add, data, Exec.ok_bind]
          exact (addCallback_served_iff registry self stored inbound.clientid add).1 decodes
      | remove =>
          obtain ⟨remove, data, harmless⟩ := safe
          simp only [Msg.remove, data, Exec.ok_bind]
          exact (removeCallback_served_iff registry self stored inbound.frame inbound.clientid
            remove).1 harmless
      | events =>
          obtain ⟨series, data⟩ := safe
          simp only [Msg.events, data, Exec.ok_bind]
          exact eventsCallback_served total registry self stored series
      | actuate =>
          obtain ⟨actuate, data⟩ := safe
          obtain ⟨accept, set⟩ := total.actuate
          simp only [Msg.actuate, data, Exec.ok_bind]
          rcases self.actuateCallback_spec callbacks set registry stored inbound.clientid actuate with
            ⟨_, refused⟩ | ⟨_, _, _, _, _, _, _, _, carried⟩
          · exact ⟨_, registry, refused, stored⟩
          · exact ⟨_, _, carried, rfl⟩
      | tick =>
          obtain ⟨tick, set, returns⟩ := total.tick
          obtain ⟨outcome, after, ticked, kept⟩ := returns inbound.env self registry stored
          refine ⟨⟨outcome.code, outcome.server,
            outcome.emitted ++ [.send inbound.clientid (Msg.fill .ack)]⟩, after, ?_, kept⟩
          simp only [tickCallback, set, ticked, Exec.ok_bind, Exec.pure_eq_ok]

theorem harmless_of_roleCallback {callbacks : UserCallbacks U E} (registry : Registry)
    {self : Server U} (stored : self.state = registry.state) {inbound : Inbound E} {msg : Msg}
    (received : inbound.msg = some msg) (completed : (self.roleCallback callbacks inbound).Completes) :
    msg.Harmless self.logLevel inbound.frame self.state := by
  obtain ⟨outcome, returned⟩ := completed
  have printed : (logPrintmsg self.logLevel (some msg)).Completes := by
    obtain ⟨_, print, _⟩ := Exec.bind_eq_ok.mp returned
    exact ⟨_, received ▸ print⟩
  refine ⟨(logPrintmsg_completes self.logLevel msg).mp printed, ?_⟩
  simp only [Msg.Dispatchable]
  cases roleCallback_handled returned with
  | actuate actuate same handled =>
      cases received.symm.trans same
      exact ⟨actuate, rfl⟩
  | list list same handled =>
      cases received.symm.trans same
      exact ⟨list, rfl⟩
  | add add same handled =>
      cases received.symm.trans same
      exact ⟨add, rfl,
        (addCallback_served_iff registry self stored inbound.clientid add).2 ⟨_, handled⟩⟩
  | events series same handled =>
      cases received.symm.trans same
      exact ⟨series, rfl⟩
  | remove remove same handled =>
      cases received.symm.trans same
      exact ⟨remove, rfl, (removeCallback_served_iff registry self stored inbound.frame
        inbound.clientid remove).2 ⟨_, handled⟩⟩
  | exit other same type handled =>
      cases received.symm.trans same
      simp [type]
  | tick other same type handled =>
      cases received.symm.trans same
      simp [type]
  | refused other same type handled =>
      cases received.symm.trans same
      rcases type with unknown | ack
      · simp [unknown]
      · simp [ack]

/-- What a client sends after its identity, and what it meets at the daemon. -/
structure Received (E : Type) where
  identity : List UInt8
  payload : List UInt8
  frame : List UInt8
  env : E

def receive (callbacks : UserCallbacks U E) (unpack : List UInt8 → Option Msg) (self : Server U)
    (received : Received E) : Exec (Outcome U) :=
  self.handleFrames callbacks unpack received.frame received.env
    [received.identity, [], received.payload]

theorem receive_eq (callbacks : UserCallbacks U E) (unpack : List UInt8 → Option Msg)
    (self : Server U) (received : Received E) :
    self.receive callbacks unpack received = (logPrintmsg self.logLevel (unpack received.payload) >>=
      fun _ => self.roleCallback callbacks
        ⟨received.identity, unpack received.payload, received.frame, received.env⟩) := by
  simp [receive, handleFrames, msgRecvfrom, stringFrombuf]

theorem receive_spec {callbacks : UserCallbacks U E} (total : callbacks.Total)
    (unpack : List UInt8 → Option Msg) (registry : Registry) {self : Server U}
    (stored : self.state = registry.state) (received : Received E) :
    ((∃ msg, unpack received.payload = some msg ∧
        msg.Harmless self.logLevel received.frame self.state) →
      Served (self.receive callbacks unpack received)) ∧
    ((self.receive callbacks unpack received).Completes →
      ∃ msg, unpack received.payload = some msg ∧
        msg.Harmless self.logLevel received.frame self.state) := by
  rw [receive_eq]
  constructor
  · rintro ⟨msg, unpacked, harmless⟩
    obtain ⟨_, print⟩ := (logPrintmsg_completes self.logLevel msg).mpr harmless.1
    simp only [unpacked, print, Exec.ok_bind]
    exact roleCallback_served total registry self stored rfl harmless
  · intro completed
    obtain ⟨_, _, handled⟩ := Exec.completes_bind.mp completed
    cases unpacked : unpack received.payload with
    | none =>
        rw [unpacked] at handled
        simp only [roleCallback, deref_none, Exec.error_bind] at handled
        obtain ⟨_, _, impossible⟩ := Exec.completes_bind.mp handled
        simp at impossible
    | some msg =>
        rw [unpacked] at handled
        exact ⟨msg, rfl, harmless_of_roleCallback registry stored rfl handled⟩

def Receives (callbacks : UserCallbacks U E) (unpack : List UInt8 → Option Msg)
    (before : Server U) (received : Received E) (after : Server U) : Prop :=
  ∃ outcome, before.receive callbacks unpack received = .ok outcome ∧ after = outcome.server

/-- In every state the daemon can reach, a client's message is handled without a
fault exactly when it unpacks to a harmless message. -/
theorem receive_completes_iff {callbacks : UserCallbacks U E} (total : callbacks.Total)
    (unpack : List UInt8 → Option Msg) {server : Server U} (fresh : server.state = State.create)
    {history : List (Received E)} {final : Server U}
    (ran : Data.Run (Receives callbacks unpack) server history final) (received : Received E) :
    (final.receive callbacks unpack received).Completes ↔
      ∃ msg, unpack received.payload = some msg ∧
        msg.Harmless final.logLevel received.frame final.state := by
  have reached : ∃ registry : Registry, final.state = registry.state := by
    refine ran.invariant (motive := fun server => ∃ registry : Registry,
      server.state = registry.state) ⟨.empty, fresh⟩ ?_
    rintro before message after ⟨registry, stored⟩ ⟨outcome, handled, rfl⟩
    have spec := receive_spec total unpack registry stored message
    obtain ⟨other, next, returned, kept⟩ := spec.1 (spec.2 ⟨outcome, handled⟩)
    cases returned.symm.trans handled
    exact ⟨next, kept⟩
  obtain ⟨registry, stored⟩ := reached
  have spec := receive_spec total unpack registry stored received
  exact ⟨spec.2, fun harmless => (spec.1 harmless).completes⟩

def idleCallbacks : UserCallbacks Unit Unit where
  event := some fun _ _ _ _ _ => .ok ((), [])
  actuate := some fun _ _ _ => 0
  tick := some fun _ server => .ok ⟨0, server, []⟩
  timer := some fun _ server => .ok ⟨0, server, []⟩

theorem idleCallbacks_total : idleCallbacks.Total where
  event := ⟨_, rfl, fun _ _ _ _ _ => ⟨_, rfl⟩⟩
  actuate := ⟨_, rfl⟩
  tick := ⟨_, rfl, fun _ _ registry stored => ⟨_, registry, rfl, stored⟩⟩

/-- What protobuf makes of the messages that consist of a type alone. -/
def unpackType : List UInt8 → Option Msg
  | [8, type] => some ⟨type.toNat, none⟩
  | _ => none

/-- And of an ADD and a REMOVE of a sensor whose uuid is one byte. -/
def unpackSensor : List UInt8 → Option Msg
  | [8, 2, 26, 7, 8, 1, 26, 3, 10, 1, uuid] => some ⟨2, some (.add ⟨1, some (.sensor ⟨[uuid]⟩)⟩)⟩
  | [8, 3, 34, 5, 8, 1, 18, 1, uuid] => some ⟨3, some (.remove ⟨1, [uuid]⟩)⟩
  | payload => unpackType payload

/-- Client `A` adds sensor `s` and then removes `q`, with every message printed; the stack
begins with the pointer that `nrm_hash_remove` was called with. -/
theorem receive_completes_iff_remove :
    ∃ server, Data.Run (Receives idleCallbacks unpackSensor) ⟨State.create, logDebug, ()⟩
        [⟨[65], [8, 2, 26, 7, 8, 1, 26, 3, 10, 1, 115], [24, 2, 109, 86, 85, 85, 0, 0], ()⟩] server ∧
      server.state.sensors.entries = [([115], ⟨[115]⟩)] ∧
      (server.receive idleCallbacks unpackSensor
        ⟨[65], [8, 3, 34, 5, 8, 1, 18, 1, 113], [24, 2, 109, 86, 85, 85, 0, 0], ()⟩).Completes := by
  have ran : Data.Run (Receives idleCallbacks unpackSensor) ⟨State.create, logDebug, ()⟩
      [⟨[65], [8, 2, 26, 7, 8, 1, 26, 3, 10, 1, 115], [24, 2, 109, 86, 85, 85, 0, 0], ()⟩]
      ⟨State.create.append (.sensor ⟨[115]⟩), logDebug, ()⟩ :=
    .snoc (.nil _) ⟨_, rfl, rfl⟩
  refine ⟨_, ran, rfl, ?_⟩
  refine (receive_completes_iff idleCallbacks_total unpackSensor rfl ran _).mpr ⟨_, rfl, ?_, ?_⟩
  · exact fun _ => ⟨_, rfl⟩
  · refine ⟨_, rfl, ?_⟩
    intro target known
    cases known
    decide

/-- An ADD with no payload follows a NULL pointer. -/
theorem add_without_payload_faults :
    ¬ (receive idleCallbacks unpackType ⟨State.create, 0, ()⟩
      ⟨[65], [8, 2], [], ()⟩).Completes := by
  have fault : receive idleCallbacks unpackType ⟨State.create, 0, ()⟩
      ⟨[65], [8, 2], [], ()⟩ = .error .nullDereference := rfl
  rw [fault]
  exact Exec.not_completes_error _

end Server

end LibNrm
