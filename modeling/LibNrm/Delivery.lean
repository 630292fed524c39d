import LibNrm.Client
import LibNrm.Messages.RoundTrip
import LibNrm.Registry.Refinement
import LibNrm.Server.Events

namespace LibNrm

section Subscriber

variable {L : Type}

theorem subEventsLoop_eq (userFn : EventListener L) (uuid : NrmString) (scope : Option Scope)
    (data : L) (events : List MsgEvent) :
    subEventsLoop userFn uuid scope data events =
      (events.map fun e => (⟨uuid, scope, .fromns e.time, e.value⟩ : EventCall)).foldl
        (fun data call => userFn data call.uuid call.time call.scope call.value) data := by
  induction events generalizing data with
  | nil => rfl
  | cons e rest ih => simp only [subEventsLoop, List.map_cons, List.foldl_cons, ih]

theorem subSeriesLoop_eq (userFn : EventListener L) (data : L) (series : List MsgTimeserie) :
    subSeriesLoop userFn data series = (series.flatMap MsgTimeserie.calls).foldl
      (fun data call => userFn data call.uuid call.time call.scope call.value) data := by
  induction series generalizing data with
  | nil => rfl
  | cons ts rest ih =>
      simp only [subSeriesLoop, List.flatMap_cons, List.foldl_append, ih, subEventsLoop_eq,
        MsgTimeserie.calls]

/-- A listener hears the same calls the server makes, in the same order. -/
theorem subCallback_eq (userFn : EventListener L) (data : L) {msg : Msg}
    {series : List MsgTimeserie} (carried : msg.data = some (.events series)) :
    subCallback (some userFn) data msg = .ok ((series.flatMap MsgTimeserie.calls).foldl
      (fun data call => userFn data call.uuid call.time call.scope call.value) data) := by
  simp only [subCallback, Msg.events, carried, Exec.ok_bind, deref_some, subSeriesLoop_eq,
    Exec.pure_eq_ok]

end Subscriber

theorem eventMsg_calls {time : NrmTime} (valid : time.Valid) {sensorUuid : NrmString}
    (sensorFree : NulFree sensorUuid) {scope : Scope} (scopeFree : NulFree scope.uuid) (value : ℚ) :
    ∃ series, (eventMsg time sensorUuid scope value).data = some (.events series) ∧
      series.flatMap MsgTimeserie.calls = [⟨sensorUuid, some scope, time, value⟩] := by
  refine ⟨_, rfl, ?_⟩
  simp only [List.flatMap_cons, List.flatMap_nil, List.append_nil, MsgTimeserie.calls, List.map_cons,
    List.map_nil, scopeCreateFrommsg, Option.map_some, msgScopeNew_decoded scopeFree,
    stringFromchar_of_nulFree sensorFree, valid.fromns_tons]

theorem Nrmd.roleCallback_event (libm : Libm ℚ) (server : Server Daemon)
    {inbound : Server.Inbound TickEnv} {time : NrmTime} (valid : time.Valid) {sensorUuid : NrmString}
    (sensorFree : NulFree sensorUuid) {scope : Scope} (scopeFree : NulFree scope.uuid) {value : ℚ}
    (received : inbound.msg = some (eventMsg time sensorUuid scope value)) :
    server.roleCallback (callbacks libm) inbound = (do
      let (user, emitted) ← eventCallback server sensorUuid (some scope) time value
      pure ⟨0, { server with user := user }, emitted⟩) := by
  obtain ⟨series, carried, calls⟩ := eventMsg_calls valid sensorFree scopeFree value
  rw [server.roleCallback_of_wellFormed (callbacks libm) received (eventMsg_wellFormed _ _ _ _)]
  have handled : server.eventsCallback (callbacks libm) (some series) = _ :=
    Server.eventsCallback_eq rfl server series
  simp only [calls, Server.callEvents] at handled
  change (do
    let events ← (eventMsg time sensorUuid scope value).events
    server.eventsCallback (callbacks libm) events) = _
  simp only [Msg.events, carried, Exec.ok_bind, handled]
  cases eventCallback server sensorUuid (some scope) time value with
  | error fault => rfl
  | ok called => simp only [Exec.ok_bind, Exec.pure_eq_ok, List.append_nil]

namespace Nrmd

theorem pushes_once (libm : Libm ℚ) (server : Server Daemon) (clientid : NrmString)
    (frame : List UInt8) (env : TickEnv) {time : NrmTime} (valid : time.Valid)
    {sensorUuid scopeUuid : NrmString} (sensorFree : NulFree sensorUuid)
    (scopeFree : NulFree scopeUuid) (cpu numa gpu : Bitmap) (value : ℚ) :
    ∃ events, server.user.events.pushEvent sensorUuid (some ⟨scopeUuid, cpu, numa, gpu⟩) time value =
        .ok (0, events) ∧
      server.roleCallback (callbacks libm)
          ⟨clientid, some (eventMsg time sensorUuid ⟨scopeUuid, cpu, numa, gpu⟩ value), frame, env⟩ =
        .ok ⟨0, { server with user := { server.user with events := events } },
          [.pub server.user.eventtopic
            (eventMsg time sensorUuid ⟨scopeUuid, cpu, numa, gpu⟩ value)]⟩ := by
  obtain ⟨events, pushed, _⟩ := server.user.events.pushEvent_spec sensorUuid
    ⟨scopeUuid, cpu, numa, gpu⟩ time value
  refine ⟨events, pushed, ?_⟩
  rw [roleCallback_event libm server valid sensorFree scopeFree rfl]
  simp only [eventCallback, pushed, Server.publish_eq, Exec.ok_bind, Exec.pure_eq_ok]

/-- An event sent by a client, for any sensor and scope it can have created, is
pushed once to the database of the daemon and published once as raw event, and
the listener of a subscriber is called once, each time with what was sent.  A
server makes one call of its event callback for each event of a message, in order
of the series and of their events. -/
theorem event_unaltered :
    (∀ (libm : Libm ℚ) (server : Server Daemon) (clientid : NrmString) (frame : List UInt8)
        (env : TickEnv) (sensorName scopeName : List UInt8) (cpu numa gpu : Bitmap) (time : NrmTime)
        (value : ℚ), time.Valid →
      ∃ sensor scope sent events published,
        sensor = sensorCreate sensorName ∧
        scope = { scopeCreate scopeName with cpu := cpu, numa := numa, gpu := gpu } ∧
        (Call.sendEvent time sensor scope value).request = .ok (some sent) ∧
        server.user.events.pushEvent sensor.uuid (some scope) time value = .ok (0, events) ∧
        server.roleCallback (callbacks libm) ⟨clientid, some sent, frame, env⟩ =
          .ok ⟨0, { server with user := { server.user with events := events } },
            [.pub server.user.eventtopic published]⟩ ∧
        ∀ (L : Type) (userFn : EventListener L) (data : L),
          subCallback (some userFn) data published =
            .ok (userFn data sensor.uuid time (some scope) value)) ∧
    (∀ (U E : Type) (callbacks : UserCallbacks U E)
        (event : Server U → NrmString → Option Scope → NrmTime → ℚ → Exec (U × List Emit))
        (self : Server U) (series : List MsgTimeserie), callbacks.event = some event →
      self.eventsCallback callbacks (some series) = (do
        let (self, emitted) ← Server.callEvents event self (series.flatMap fun ts =>
          ts.events.map fun e =>
            ⟨stringFromchar ts.sensorUuid, scopeCreateFrommsg ts.scope, .fromns e.time, e.value⟩)
        pure ⟨0, self, emitted⟩)) := by
  constructor
  · intro libm server clientid frame env sensorName scopeName cpu numa gpu time value valid
    obtain ⟨events, pushed, handled⟩ := pushes_once libm server clientid frame env valid
      (stringFromchar_nulFree sensorName) (stringFromchar_nulFree scopeName) cpu numa gpu value
    refine ⟨sensorCreate sensorName, ⟨stringFromchar scopeName, cpu, numa, gpu⟩,
      eventMsg time (stringFromchar sensorName) ⟨stringFromchar scopeName, cpu, numa, gpu⟩ value,
      events,
      eventMsg time (stringFromchar sensorName) ⟨stringFromchar scopeName, cpu, numa, gpu⟩ value,
      rfl, rfl, rfl, pushed, handled, ?_⟩
    intro L userFn data
    have scopeFree : NulFree (Scope.mk (stringFromchar scopeName) cpu numa gpu).uuid :=
      stringFromchar_nulFree scopeName
    obtain ⟨series, carried, calls⟩ :=
      eventMsg_calls valid (stringFromchar_nulFree sensorName) scopeFree value
    rw [subCallback_eq userFn data carried, calls]
    rfl
  · intro U E callbacks event self series set
    exact Server.eventsCallback_eq set self series

/-- Sensor `t` sends 3 at one second and five nanoseconds, for scope `g` on no resource. -/
theorem event_unaltered_sample :
    ∃ sent outcome published,
      (Call.sendEvent ⟨1, 5⟩ (sensorCreate [116]) (scopeCreate [103]) 3).request = .ok (some sent) ∧
      fresh.roleCallback (callbacks ⟨fun _ => 1, fun _ => 0⟩) ⟨[65], some sent, [], noEnv⟩ =
        .ok outcome ∧
      outcome.emitted = [.pub [101] published] ∧
      subCallback (some fun heard uuid time scope value => heard ++ [(uuid, time, scope, value)]) []
        published = .ok [([116], ⟨1, 5⟩, some (scopeCreate [103]), 3)] := by
  obtain ⟨_, _, sent, events, published, rfl, rfl, requested, _, handled, heard⟩ :=
    event_unaltered.1 ⟨fun _ => 1, fun _ => 0⟩ fresh [65] [] noEnv [116] [103] .reset .reset
      .reset ⟨1, 5⟩ 3 (by decide)
  exact ⟨sent, _, published, requested, handled, rfl, heard _ _ _⟩

end Nrmd

end LibNrm
