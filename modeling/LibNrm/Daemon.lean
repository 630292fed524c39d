import LibNrm.Control.Europar21
import LibNrm.EventBase.Exactness
import LibNrm.Server

namespace LibNrm

/-! `Daemon` is `struct nrm_daemon_s` without the registry, which the server holds,
and the functions of `Nrmd` are the `nrmd_x` of `nrmd.c`.  The only control
method there is, `europar21`, stands for the operations table of a control.
-/

structure Daemon where
  events : EventBase ℚ
  control : Option (Europar21 ℚ)
  mysensor : Sensor
  myscope : Scope
  mytopic : NrmString
  eventtopic : NrmString

/-- What a wakeup reads from outside: its clock readings in the order they are taken, and for
each input what the uninitialised `scope` of its iteration happens to hold. -/
structure TickEnv where
  timer : NrmTime
  start : NrmTime
  scopes : Nat → Ptr Scope
  pulls : Nat → NrmTime
  action : NrmTime

namespace Nrmd

def eventCallback (server : Server Daemon) (uuid : NrmString) (scope : Option Scope)
    (time : NrmTime) (value : ℚ) : Exec (Daemon × List Emit) := do
  let (_, events) ← server.user.events.pushEvent uuid scope time value
  let emitted ← server.publish server.user.eventtopic time uuid scope value
  pure ({ server.user with events := events }, emitted)

def actuateCallback (_daemon : Daemon) (_a : Actuator) (_value : ℚ) : Int := 0

def actuatorValue (state : State) (uuid : NrmString) : ℚ :=
  match (state.actuators.find uuid).2 with
  | some a => a.value
  | none => 0

/-- `nrm_hash_find` writes to its out-parameter only when it finds something, so an
unregistered scope leaves the local variable as it was. -/
def inputScope (state : State) (env : TickEnv) (index : Nat) (input : ControlInput ℚ) : Ptr Scope :=
  match (state.scopes.find input.scopeUuid).2 with
  | some scope => .object scope
  | none => env.scopes index

def pullInput (server : Server Daemon) (env : TickEnv) (index : Nat) (input : ControlInput ℚ) :
    Exec (ControlInput ℚ) :=
  match inputScope server.state env index input with
  | .null => .ok input
  | scope => do
      let timeserie ← server.user.events.pullTimeserie input.sensorUuid scope input.since
        (env.pulls index)
      pure { input with timeserie := some timeserie }

def pullInputs (server : Server Daemon) (env : TickEnv) :
    Nat → List (ControlInput ℚ) → Exec (List (ControlInput ℚ))
  | _, [] => .ok []
  | index, input :: rest => do
      let input ← pullInput server env index input
      let rest ← pullInputs server env (index + 1) rest
      pure (input :: rest)

def readOutputs (state : State) (outputs : List (ControlOutput ℚ)) : List (ControlOutput ℚ) :=
  outputs.map fun out => { out with value := actuatorValue state out.actuatorUuid }

def actuateOutputs : Server Daemon → List (ControlOutput ℚ) → Exec (Server Daemon × List Emit)
  | server, [] => .ok (server, [])
  | server, out :: rest => do
      let (server, first) ← server.actuate out.actuatorUuid out.value
      let (server, later) ← actuateOutputs server rest
      pure (server, first ++ later)

def controlTick (libm : Libm ℚ) (env : TickEnv) (server : Server Daemon) :
    Exec (Outcome Daemon) := do
  let control ← deref server.user.control
  let control := control.getargs
  let inputs ← pullInputs server env 0 control.inputs
  let outputs := readOutputs server.state control.outputs
  let (_, control, outputs) ←
    Europar21.action libm env.action { control with inputs := inputs } inputs outputs
  let control := { control with outputs := outputs }
  let server := { server with user := { server.user with control := some control } }
  let (server, emitted) ← actuateOutputs server outputs
  let events := server.user.events.tick env.start
  pure ⟨0, { server with user := { server.user with events := events } }, emitted⟩

def tickCallback (libm : Libm ℚ) (env : TickEnv) (server : Server Daemon) :
    Exec (Outcome Daemon) :=
  match server.user.control with
  | none => .ok ⟨0, server, []⟩
  | some _ => do
      let outcome ← controlTick libm env server
      pure { outcome with code := 0 }

def timerCallback (libm : Libm ℚ) (env : TickEnv) (server : Server Daemon) :
    Exec (Outcome Daemon) := do
  let published ← server.publish server.user.mytopic env.timer server.user.mysensor.uuid
    (some server.user.myscope) 1
  match server.user.control with
  | none => pure ⟨0, server, published⟩
  | some _ => do
      let outcome ← controlTick libm env server
      pure ⟨0, outcome.server, published ++ outcome.emitted⟩

def callbacks (libm : Libm ℚ) : UserCallbacks Daemon TickEnv where
  event := some eventCallback
  actuate := some actuateCallback
  tick := some (tickCallback libm)
  timer := some (timerCallback libm)

end Nrmd

/-- The message of one event, as `nrm_client_send_event` and `nrm_server_publish` both build
it. -/
def eventMsg (time : NrmTime) (sensorUuid : NrmString) (scope : Scope) (value : ℚ) : Msg where
  type := MsgType.events.toInt
  data := some (.events [
    { sensorUuid := stringFromchar sensorUuid
      scope := some (msgScopeNew scope)
      start := ((Timeserie.create sensorUuid (.object scope)).addEvent ⟨time, value⟩).start.tons
      events := [⟨time.tons, value⟩] }])

theorem setEvents_single (time : NrmTime) (sensorUuid : NrmString) (scope : Scope) (value : ℚ) :
    (Msg.fill .events).setEvents
        [(Timeserie.create sensorUuid (.object scope)).addEvent ⟨time, value⟩] =
      .ok (eventMsg time sensorUuid scope value) := rfl

theorem eventMsg_wellFormed (time : NrmTime) (sensorUuid : NrmString) (scope : Scope) (value : ℚ) :
    (eventMsg time sensorUuid scope value).WellFormed := .events _ rfl rfl (by simp)

theorem Server.publish_eq (server : Server U) (topic : NrmString) (now : NrmTime)
    (sensorUuid : NrmString) (scope : Scope) (value : ℚ) :
    server.publish topic now sensorUuid (some scope) value =
      .ok [.pub topic (eventMsg now sensorUuid scope value)] := by
  have printed : logPrintmsg server.logLevel (some (eventMsg now sensorUuid scope value)) = .ok () :=
    logPrintmsg_of_toJson (eventMsg_wellFormed now sensorUuid scope value).toJson
  simp only [Server.publish, setEvents_single, Exec.ok_bind, printed, Exec.pure_eq_ok]

theorem Server.publish_completes (server : Server U) (topic : NrmString) (now : NrmTime)
    (sensorUuid : NrmString) (scope : Option Scope) (value : ℚ) :
    ∃ emitted, server.publish topic now sensorUuid scope value = .ok emitted ∧
      ∀ emit ∈ emitted, ∃ msg, emit = .pub topic msg := by
  cases scope with
  | none => exact ⟨[], rfl, by simp⟩
  | some scope => exact ⟨_, server.publish_eq topic now sensorUuid scope value, by simp⟩

namespace Nrmd

theorem eventCallback_spec (server : Server Daemon) (uuid : NrmString) (scope : Option Scope)
    (time : NrmTime) (value : ℚ) :
    ∃ code events emitted,
      server.user.events.pushEvent uuid scope time value = .ok (code, events) ∧
      eventCallback server uuid scope time value =
        .ok ({ server.user with events := events }, emitted) ∧
      ∀ emit ∈ emitted, ∃ msg, emit = .pub server.user.eventtopic msg := by
  obtain ⟨emitted, published, onlyPub⟩ :=
    server.publish_completes server.user.eventtopic time uuid scope value
  cases scope with
  | none =>
      exact ⟨_, _, emitted, rfl, by simp [eventCallback, EventBase.pushEvent, published], onlyPub⟩
  | some scope =>
      obtain ⟨events, pushes, _⟩ := server.user.events.pushEvent_spec uuid scope time value
      exact ⟨0, events, emitted, pushes, by simp [eventCallback, pushes, published], onlyPub⟩

theorem pullInputs_length {server : Server Daemon} {env : TickEnv} {index : Nat}
    {inputs pulled : List (ControlInput ℚ)}
    (pulls : pullInputs server env index inputs = .ok pulled) : pulled.length = inputs.length := by
  induction inputs generalizing index pulled with
  | nil =>
      cases pulls
      rfl
  | cons input rest ih =>
      obtain ⟨first, _, continued⟩ := Exec.bind_eq_ok.mp pulls
      obtain ⟨others, later, done⟩ := Exec.bind_eq_ok.mp continued
      cases done
      simp only [List.length_cons, ih later]

theorem actuateOutputs_user {server after : Server Daemon} {outputs : List (ControlOutput ℚ)}
    {emitted : List Emit} (actuated : actuateOutputs server outputs = .ok (after, emitted)) :
    after.user = server.user := by
  induction outputs generalizing server emitted with
  | nil =>
      cases actuated
      rfl
  | cons out rest ih =>
      obtain ⟨⟨middle, first⟩, head, continued⟩ := Exec.bind_eq_ok.mp actuated
      obtain ⟨⟨last, others⟩, tail, done⟩ := Exec.bind_eq_ok.mp continued
      cases done
      rw [ih tail]
      simp only [Server.actuate] at head
      split at head
      · cases head
        rfl
      · obtain ⟨corrected, _, rest⟩ := Exec.bind_eq_ok.mp head
        obtain ⟨owner, _, done⟩ := Exec.bind_eq_ok.mp rest
        cases done
        rfl

theorem readOutputs_actuators (state : State) (outputs : List (ControlOutput ℚ)) :
    (readOutputs state outputs).map ControlOutput.actuatorUuid =
      outputs.map ControlOutput.actuatorUuid := by
  simp [readOutputs]

theorem controlTick_eq_ok {libm : Libm ℚ} {env : TickEnv} {server : Server Daemon}
    {outcome : Outcome Daemon} (ticked : controlTick libm env server = .ok outcome) :
    ∃ control inputs code after outputs, server.user.control = some control ∧
      pullInputs server env 0 control.getargs.inputs = .ok inputs ∧
      Europar21.action libm env.action { control with inputs := inputs } inputs
        (readOutputs server.state control.outputs) = .ok (code, after, outputs) ∧
      outcome.server.user =
        { server.user with control := some { after with outputs := outputs } } := by
  obtain ⟨control, present, pulling⟩ := Exec.bind_eq_ok.mp ticked
  obtain ⟨inputs, pulled, acting⟩ := Exec.bind_eq_ok.mp pulling
  obtain ⟨⟨code, after, outputs⟩, acted, actuating⟩ := Exec.bind_eq_ok.mp acting
  obtain ⟨⟨last, emitted⟩, actuated, finished⟩ := Exec.bind_eq_ok.mp actuating
  cases finished
  have user := actuateOutputs_user actuated
  refine ⟨control, inputs, code, after, outputs, ?_, pulled, acted, ?_⟩
  · cases stored : server.user.control with
    | none =>
        rw [stored] at present
        cases present
    | some other =>
        rw [stored] at present
        cases present
        rfl
  · simp only [EventBase.tick, user]

end Nrmd

end LibNrm
