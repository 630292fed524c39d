import LibNrm.Server.Events
import LibNrm.Server.Handlers

namespace LibNrm

namespace Nrmd

variable (libm : Libm ℚ)

theorem eventsCallback_spec (self : Server Daemon) (series : List MsgTimeserie) :
    ∃ db emitted, self.eventsCallback (callbacks libm) (some series) =
        .ok ⟨0, { self with user := { self.user with events := db } }, emitted⟩ ∧
      ∀ emit ∈ emitted, ∃ msg, emit = .pub self.user.eventtopic msg := by
  obtain ⟨after, emitted, called, ⟨db, rfl⟩, onlyPub⟩ :=
    Server.callEvents_total
      (fun server => ∃ db, server = { self with user := { self.user with events := db } })
      (fun emit => ∃ msg, emit = .pub self.user.eventtopic msg)
      (fun server uuid scope time value ⟨db, stored⟩ => by
        subst stored
        obtain ⟨_, pushed, emitted, _, handled, onlyPub⟩ := eventCallback_spec _ uuid scope time value
        exact ⟨_, emitted, handled, ⟨pushed, rfl⟩, onlyPub⟩)
      ⟨self.user.events, rfl⟩ (series.flatMap MsgTimeserie.calls)
  refine ⟨db, emitted, ?_, onlyPub⟩
  rw [Server.eventsCallback_eq rfl, called]
  rfl

end Nrmd

theorem Server.roleCallback_of_wellFormed {U E : Type} (callbacks : UserCallbacks U E)
    (self : Server U) {inbound : Server.Inbound E} {msg : Msg} (received : inbound.msg = some msg)
    (wellFormed : msg.WellFormed) :
    self.roleCallback callbacks inbound =
      match MsgType.ofInt? msg.type with
      | some .actuate => do self.actuateCallback callbacks inbound.clientid (← msg.actuate)
      | some .list => do self.listCallback inbound.clientid (← msg.list)
      | some .add => do self.addCallback inbound.clientid (← msg.add)
      | some .events => do self.eventsCallback callbacks (← msg.events)
      | some .remove => do self.removeCallback inbound.frame inbound.clientid (← msg.remove)
      | some .exit => pure (self.exitCallback inbound.clientid)
      | some .tick => self.tickCallback callbacks inbound.env inbound.clientid
      | _ => pure ⟨-nrmEinval, self, []⟩ := by
  have printed : logPrintmsg self.logLevel (some msg) = .ok () :=
    logPrintmsg_of_toJson wellFormed.toJson
  rw [roleCallback, received, printed]
  rfl

namespace Nrmd

variable (libm : Libm ℚ)

def handle (server : Server Daemon) (inbound : Server.Inbound TickEnv) : Exec (Server Daemon) := do
  let outcome ← server.roleCallback (callbacks libm) inbound
  pure outcome.server

theorem handle_add (server : Server Daemon) (inbound : Server.Inbound TickEnv) {add : MsgAdd}
    (received : inbound.msg = some ⟨MsgType.add.toInt, some (.add add)⟩)
    (wellFormed : add.WellFormed) {object : Object}
    (decoded : add.object inbound.clientid = some object) :
    handle libm server inbound = .ok { server with state := server.state.store object } := by
  have dispatched := server.roleCallback_of_wellFormed (callbacks libm) received
    (.add add rfl rfl wellFormed)
  obtain ⟨_, _, _, _, handled⟩ := server.addCallback_spec inbound.clientid wellFormed decoded
  simp only [MsgType.ofInt?_toInt, Msg.add, Exec.ok_bind, handled] at dispatched
  simp only [handle, dispatched, Exec.ok_bind, Exec.pure_eq_ok]

theorem handle_actuate (registry : Registry) (server : Server Daemon)
    (stored : server.state = registry.state) (inbound : Server.Inbound TickEnv) {msg : MsgActuate}
    (received : inbound.msg = some ⟨MsgType.actuate.toInt, some (.actuate msg)⟩) :
    ∃ value, handle libm server inbound =
      .ok { server with state := (registry.setValue (stringFromchar msg.uuid) value).state } := by
  have dispatched := server.roleCallback_of_wellFormed (callbacks libm) received
    (.actuate msg rfl rfl)
  simp only [MsgType.ofInt?_toInt, Msg.actuate, Exec.ok_bind] at dispatched
  rcases Server.actuateCallback_spec (callbacks libm) rfl registry server stored inbound.clientid
      msg with
    ⟨refused, unchanged⟩ | ⟨a, code, corrected, owner, _, _, _, _, carried⟩
  · have absent : registry.state.actuators.lookup (stringFromchar msg.uuid) = none := by
      cases found : registry.state.actuators.lookup (stringFromchar msg.uuid) with
      | none => rfl
      | some a => exact absurd rfl (refused a (stored ▸ found))
    refine ⟨0, ?_⟩
    rw [Registry.setValue_state, Data.Table.modify_of_lookup_none absent, ← stored]
    simp only [handle, dispatched, unchanged, Exec.ok_bind, Exec.pure_eq_ok]
  · exact ⟨corrected, by simp only [handle, dispatched, carried, Exec.ok_bind, Exec.pure_eq_ok]⟩

/-- Messages that only read the registry. -/
inductive Quiet (msg : Msg) : Prop where
  | list (list : MsgList) (type : msg.type = MsgType.list.toInt)
      (data : msg.data = some (.list list)) (inner : list.WellFormed)
  | events (series : List MsgTimeserie) (type : msg.type = MsgType.events.toInt)
      (data : msg.data = some (.events series)) (inner : ∀ ts ∈ series, ts.scope.isSome)
  | tick (type : msg.type = MsgType.tick.toInt)

theorem handle_quiet (registry : Registry) (server : Server Daemon)
    (stored : server.state = registry.state) (uncontrolled : server.user.control = none)
    (inbound : Server.Inbound TickEnv) {msg : Msg} (received : inbound.msg = some msg)
    (quiet : Quiet msg) :
    ∃ db, handle libm server inbound =
      .ok { server with user := { server.user with events := db } } := by
  cases quiet with
  | list list type data inner =>
      have dispatched := server.roleCallback_of_wellFormed (callbacks libm) received
        (.list list type data inner)
      obtain ⟨target, known⟩ : ∃ target : TargetType, list.type = target.toInt := by
        cases inner with
        | slice _ type _ => exact ⟨_, type⟩
        | sensor _ type _ => exact ⟨_, type⟩
        | scope _ type _ => exact ⟨_, type⟩
        | actuator _ type _ _ => exact ⟨_, type⟩
      obtain ⟨_, _, _, _, answered⟩ := server.listCallback_spec registry stored inbound.clientid known
      simp only [type, MsgType.ofInt?_toInt, Msg.list, data, Exec.ok_bind, answered] at dispatched
      exact ⟨server.user.events, by simp only [handle, dispatched, Exec.ok_bind, Exec.pure_eq_ok]⟩
  | events series type data inner =>
      have dispatched := server.roleCallback_of_wellFormed (callbacks libm) received
        (.events series type data inner)
      obtain ⟨db, emitted, pushed, _⟩ := eventsCallback_spec libm server series
      simp only [type, MsgType.ofInt?_toInt, Msg.events, data, Exec.ok_bind, pushed] at dispatched
      exact ⟨db, by simp only [handle, dispatched, Exec.ok_bind, Exec.pure_eq_ok]⟩
  | tick type =>
      have dispatched := server.roleCallback_of_wellFormed (callbacks libm) received (.tick type)
      have ticked : server.tickCallback (callbacks libm) inbound.env inbound.clientid =
          .ok ⟨0, server, [.send inbound.clientid (Msg.fill .ack)]⟩ := by
        simp [Server.tickCallback, callbacks, tickCallback, uncontrolled]
      simp only [type, MsgType.ofInt?_toInt, ticked] at dispatched
      exact ⟨server.user.events, by simp only [handle, dispatched, Exec.ok_bind, Exec.pure_eq_ok]⟩

/-- The requests of an ordinary client: ADD, ACTUATE, LIST, EVENTS and TICK. -/
inductive Ordinary (inbound : Server.Inbound TickEnv) : Prop where
  | add (add : MsgAdd) (received : inbound.msg = some ⟨MsgType.add.toInt, some (.add add)⟩)
      (wellFormed : add.WellFormed)
  | actuate (msg : MsgActuate)
      (received : inbound.msg = some ⟨MsgType.actuate.toInt, some (.actuate msg)⟩)
  | quiet (msg : Msg) (received : inbound.msg = some msg) (quiet : Quiet msg)

theorem handle_ordinary (server : Server Daemon) (inbound : Server.Inbound TickEnv)
    (sound : (∃ registry : Registry, server.state = registry.state) ∧ server.user.control = none)
    (ordinary : Ordinary inbound) :
    ∃ next, handle libm server inbound = .ok next ∧
      (∃ registry : Registry, next.state = registry.state) ∧ next.user.control = none := by
  obtain ⟨⟨registry, stored⟩, uncontrolled⟩ := sound
  cases ordinary with
  | add add received wellFormed =>
      obtain ⟨object, decoded, ready, _⟩ := wellFormed.object inbound.clientid
      refine ⟨_, handle_add libm server inbound received wellFormed decoded, ?_, uncontrolled⟩
      exact ⟨registry.register object ready, by rw [stored, registry.store_eq_register object ready]⟩
  | actuate msg received =>
      obtain ⟨value, handled⟩ := handle_actuate libm registry server stored inbound received
      exact ⟨_, handled, ⟨_, rfl⟩, uncontrolled⟩
  | quiet msg received quiet =>
      obtain ⟨db, handled⟩ := handle_quiet libm registry server stored uncontrolled inbound received quiet
      exact ⟨_, handled, ⟨registry, stored⟩, uncontrolled⟩

/-- Every run of ordinary requests completes.  In the state it reaches, keys are
distinct and name their objects; an ADD appends the decoded object unless its
uuid is taken, an ACTUATE changes at most the value of the actuator it names,
and the other requests change no table. -/
theorem run_refines (server : Server Daemon) (fresh : server.state = State.create)
    (uncontrolled : server.user.control = none) (inbounds : List (Server.Inbound TickEnv))
    (ordinary : ∀ inbound ∈ inbounds, Ordinary inbound) :
    ∃ final, Data.run (handle libm) server inbounds = .ok final ∧ final.state.WellKeyed ∧
      (∀ inbound add object, inbound.msg = some ⟨MsgType.add.toInt, some (.add add)⟩ →
        add.WellFormed → add.object inbound.clientid = some object →
        ∃ next, handle libm final inbound = .ok next ∧
          (final.state.find object.type object.uuid = none →
            next.state = final.state.append object) ∧
          (final.state.find object.type object.uuid ≠ none → next.state = final.state)) ∧
      (∀ inbound msg, inbound.msg = some ⟨MsgType.actuate.toInt, some (.actuate msg)⟩ →
        ∃ next value, handle libm final inbound = .ok next ∧
          next.state = { final.state with
            actuators := final.state.actuators.modify (stringFromchar msg.uuid) fun a =>
              { a with value := value } }) ∧
      (∀ inbound msg, inbound.msg = some msg → Quiet msg →
        ∃ next, handle libm final inbound = .ok next ∧ next.state = final.state) := by
  obtain ⟨final, ran, ⟨registry, stored⟩, stillUncontrolled⟩ :=
    Data.run_total (handle_ordinary libm) ⟨⟨.empty, fresh⟩, uncontrolled⟩ ordinary
  refine ⟨final, ran, stored ▸ registry.wellKeyed, ?_, ?_, ?_⟩
  · intro inbound add object received wellFormed decoded
    refine ⟨_, handle_add libm final inbound received wellFormed decoded, State.store_of_absent, ?_⟩
    intro taken
    obtain ⟨old, present⟩ := Option.ne_none_iff_exists'.mp taken
    exact State.store_of_present present
  · intro inbound msg received
    obtain ⟨value, handled⟩ := handle_actuate libm registry final stored inbound received
    refine ⟨_, value, handled, ?_⟩
    rw [stored]
    rfl
  · intro inbound msg received quiet
    obtain ⟨db, handled⟩ :=
      handle_quiet libm registry final stored stillUncontrolled inbound received quiet
    exact ⟨_, handled, rfl⟩

def fresh : Server Daemon where
  state := State.create
  logLevel := 0
  user := ⟨.create 5, none, ⟨[116]⟩, scopeCreate [103], [100], [101]⟩

def noEnv : TickEnv := ⟨⟨0, 0⟩, ⟨0, 0⟩, fun _ => .null, fun _ => ⟨0, 0⟩, ⟨0, 0⟩⟩

def inboundAdd (clientid : NrmString) (add : MsgAdd) : Server.Inbound TickEnv :=
  ⟨clientid, some ⟨MsgType.add.toInt, some (.add add)⟩, [], noEnv⟩

/-- Two clients register one uuid, a third actuates it, then a tick. -/
theorem run_refines_sample :
    ∃ final, Data.run (handle ⟨fun _ => 1, fun _ => 0⟩) fresh
        [inboundAdd [65] ⟨3, some (.actuator ⟨[97], none, 0, 0, some (.discrete [2, 1])⟩)⟩,
          inboundAdd [66] ⟨3, some (.actuator ⟨[97], none, 5, 1, some (.continuous 0 9)⟩)⟩,
          ⟨[67], some ⟨5, some (.actuate ⟨[97], 2⟩)⟩, [], noEnv⟩,
          ⟨[67], some ⟨7, none⟩, [], noEnv⟩] = .ok final ∧ final.state.WellKeyed := by
  obtain ⟨final, ran, keyed, _⟩ := run_refines ⟨fun _ => 1, fun _ => 0⟩ fresh rfl rfl
    [inboundAdd [65] ⟨3, some (.actuator ⟨[97], none, 0, 0, some (.discrete [2, 1])⟩)⟩,
      inboundAdd [66] ⟨3, some (.actuator ⟨[97], none, 5, 1, some (.continuous 0 9)⟩)⟩,
      ⟨[67], some ⟨5, some (.actuate ⟨[97], 2⟩)⟩, [], noEnv⟩,
      ⟨[67], some ⟨7, none⟩, [], noEnv⟩] (by
    simp only [List.forall_mem_cons]
    refine ⟨.add _ rfl (.actuator _ rfl rfl (.discrete _ rfl rfl)),
      .add _ rfl (.actuator _ rfl rfl (.continuous _ _ rfl rfl)), .actuate _ rfl,
      .quiet _ rfl (.tick rfl), by simp⟩)
  exact ⟨final, ran, keyed⟩

end Nrmd

end LibNrm
